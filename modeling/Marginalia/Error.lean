import Marginalia.Disk.Fault
import Marginalia.Settings.Failure

/-!
# Errors

Everything that can end a run, and how it is put to the user.
-/

namespace Marginalia

/-- How far a run has come. -/
inductive Stage where
  /-- Nothing has been submitted. -/
  | idle
  /-- Files are being submitted. -/
  | collecting
  /-- The end of the batch is being worked on. -/
  | finalizing
  /-- The run has ended well. -/
  | done
  /-- The run has failed. -/
  | errored
  deriving DecidableEq

namespace Stage

/-- The name of a stage. -/
def name : Stage → String
  | idle => "Idle"
  | collecting => "Collecting"
  | finalizing => "Finalizing"
  | done => "Done"
  | errored => "Errored"

/-- Whether files can still be submitted. -/
def isOpen : Stage → Bool
  | idle | collecting => true
  | finalizing | done | errored => false

end Stage

/-- Which of the two hooks is meant. -/
inductive HookKind where
  | note
  | header
  deriving DecidableEq

/-- The name of a hook. -/
def HookKind.name : HookKind → String
  | note => "transformComment"
  | header => "transformHeader"

/-- Why a run ended. -/
inductive Error where
  /-- No grammar is known for the extension of a file. -/
  | unsupportedExtension (path extension : String)
  /-- The content of a file has not arrived. -/
  | streamingNotSupported (path : String)
  /-- A hook refused to write its line. -/
  | hookFailed (hook : HookKind) (reason : String)
  /-- The settings text is refused. -/
  | badSettings (failure : Settings.Failure)
  /-- A file cannot be read or written. -/
  | disk (fault : Disk.Fault)
  /-- The run had ended already. -/
  | runClosed (stage : Stage)

/-- The wording of an error. -/
def Error.message : Error → String
  | unsupportedExtension path extension =>
    "File: " ++ path ++ " - Extension " ++ extension ++ " is not supported"
  | streamingNotSupported path => "Streaming not supported: " ++ path
  | hookFailed hook reason => "The " ++ hook.name ++ " hook failed: " ++ reason
  | badSettings failure => "Could not parse the configuration: " ++ failure.message
  | disk fault => "IO error: " ++ fault.message
  | runClosed stage => "The run is already " ++ stage.name

end Marginalia
