import Marginalia.Progress.Message

/-!
# The message loop

A worker sends messages into a queue while a loop takes them out and
prints them. The loop waits for a message or for a while, then looks
whether the worker has finished; when it has, the loop prints what is
left in the queue and returns. `Loop.Step` lists the steps that the two
can take, one at a time and in any interleaving.
-/

namespace Marginalia

/-- What the loop does next. -/
inductive Loop.Phase where
  /-- It waits for a message. -/
  | waiting
  /-- It looks whether the worker has finished. -/
  | checking
  /-- It empties the queue. -/
  | draining
  /-- It has returned. -/
  | returned
  deriving DecidableEq

/-- A worker, the queue it sends into, and the loop that prints what
comes out. -/
structure Loop where
  /-- The messages that the worker has still to send. -/
  unsent : List Message
  /-- The messages in the queue, oldest first. -/
  queue : List Message := []
  /-- Whether the worker has finished. -/
  finished : Bool := false
  phase : Loop.Phase := .waiting
  printer : Printer := {}

namespace Loop

/-- One step of the worker or of the loop. -/
inductive Step : Loop → Loop → Prop
  /-- The worker sends its next message. -/
  | send {l : Loop} {m : Message} {rest : List Message} :
      l.unsent = m :: rest → Step l { l with unsent := rest, queue := l.queue ++ [m] }
  /-- The worker finishes after its last message. -/
  | finish {l : Loop} : l.unsent = [] → Step l { l with finished := true }
  /-- The loop receives a message and prints it. -/
  | receive {l : Loop} {m : Message} {rest : List Message} :
      l.phase = .waiting → l.queue = m :: rest →
      Step l { l with queue := rest, printer := l.printer.print m, phase := .checking }
  /-- The loop has waited long enough. -/
  | timeout {l : Loop} : l.phase = .waiting → Step l { l with phase := .checking }
  /-- The worker has not finished, and the loop waits again. -/
  | again {l : Loop} :
      l.phase = .checking → l.finished = false → Step l { l with phase := .waiting }
  /-- The worker has finished. -/
  | drain {l : Loop} :
      l.phase = .checking → l.finished = true → Step l { l with phase := .draining }
  /-- The loop prints a message that is left. -/
  | take {l : Loop} {m : Message} {rest : List Message} :
      l.phase = .draining → l.queue = m :: rest →
      Step l { l with queue := rest, printer := l.printer.print m }
  /-- Nothing is left, and the loop returns. -/
  | leave {l : Loop} :
      l.phase = .draining → l.queue = [] → Step l { l with phase := .returned }

/-- Any number of steps. -/
inductive Steps : Loop → Loop → Prop
  | refl (l : Loop) : Steps l l
  | tail {l m n : Loop} : Steps l m → Step m n → Steps l n

end Loop

end Marginalia
