import Marginalia.Run

/-!
# Messages

What the host tells the user while it works: how many files it starts
with, the events of the run, and how it ended. Some messages show
nothing but drive a progress display.
-/

namespace Marginalia

/-- A message to the user. -/
inductive Message where
  /-- So many files are to be read. -/
  | starting (files : Nat)
  /-- Something happened in the run. -/
  | event (e : Event)
  /-- The work is done. -/
  | goodbye
  /-- The work has failed. -/
  | error (e : Error)

namespace Message

/-- The line that a message shows. -/
def line? : Message → Option String
  | starting _ => none
  | event (.found _) => none
  | event (.skipped path) => some ("  skipped " ++ path)
  | event (.rendered files notes) =>
    some ("Found " ++ toString notes ++ " annotations in " ++ toString files ++ " files")
  | event .noReport => some "No annotations found, no report written"
  | goodbye => some "🏁 All done!"
  | error e => some e.message

/-- Whether a message says that the work has failed. -/
def isError : Message → Bool
  | error _ => true
  | _ => false

end Message

/-- What has been shown of the messages, and whether one of them was an
error. -/
structure Printer where
  printed : List Message := []
  failed : Bool := false

namespace Printer

/-- Shows one more message. -/
def print (p : Printer) (m : Message) : Printer :=
  ⟨p.printed ++ [m], p.failed || m.isError⟩

/-- All that has been shown. -/
def text (p : Printer) : String :=
  String.join (p.printed.filterMap fun m => m.line?.map (· ++ "\n"))

/-- The exit status. -/
def status (p : Printer) : UInt32 :=
  if p.failed then 1 else 0

end Printer

end Marginalia
