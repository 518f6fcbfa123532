import Mathlib.Logic.Function.Basic

namespace NumarkNS6.Foundation.Services

/-- A component with work of its own under way. Its calls may have to wait for
events, which arrive by themselves while an event loop runs; `waiting` says that
the last call has not returned, `result` what it has returned, `running` that the
component makes more work and `outstanding` that work is left. `attached` tells a
component that is set up from one that is not, and `loop` whether a call finds
an event loop. -/
structure Service (ρ : Type) where
  State : Type
  Init : Type
  Answers : Type
  Event : Type
  make : Init → State
  loop : Answers → Bool
  start : Answers → State → State
  stop : Answers → State → State
  event : State → Event → Option State
  waiting : State → Bool
  result : State → ρ
  running : State → Bool
  attached : State → Bool
  outstanding : State → Bool

variable {ρ : Type}

def Service.active (S : Service ρ) (s : S.State) : Bool := S.running s || S.outstanding s

/-- What callers may rely on: calls and events keep an invariant; only work that
is outstanding makes events; and a `stop` that returns `ok`, at once or after
waiting, has ended all activity. A `start` that has to wait fails. -/
structure Contract (S : Service ρ) (ok : ρ) (Inv : S.State → Prop) : Prop where
  make (i : S.Init) : Inv (S.make i) ∧ S.waiting (S.make i) = false ∧ S.active (S.make i) = false
  start {s : S.State} (a : S.Answers) : Inv s → S.waiting s = false → Inv (S.start a s)
  stop {s : S.State} (a : S.Answers) : Inv s → S.waiting s = false → Inv (S.stop a s)
  event {s t : S.State} {e : S.Event} : Inv s → S.event s e = some t → Inv t
  calm {s t : S.State} {e : S.Event} : Inv s → S.waiting s = false → S.event s e = some t →
    S.outstanding s = true ∧ S.waiting t = false
  stopped {s : S.State} (a : S.Answers) : Inv s → S.waiting s = false →
    S.waiting (S.stop a s) = false → S.result (S.stop a s) = ok → S.active (S.stop a s) = false
  returned {s t : S.State} {e : S.Event} : Inv s → S.waiting s = true → S.event s e = some t →
    S.waiting t = false → S.result t = ok → S.active t = false
  unsuccessful {s : S.State} (a : S.Answers) : Inv s → S.waiting s = false →
    S.waiting (S.start a s) = false → S.result (S.start a s) = ok → S.loop a = true

/-- Once nothing is outstanding, a `stop` returns at once, and the next one returns `ok`. -/
structure Settles (S : Service ρ) (ok : ρ) (Inv Done : S.State → Prop) : Prop where
  asked (loop : Bool) : ∃ a, S.loop a = loop
  first {s : S.State} (a : S.Answers) : Inv s → S.waiting s = false → S.outstanding s = false →
    S.waiting (S.stop a s) = false ∧ Done (S.stop a s)
  again {s : S.State} (a : S.Answers) : Inv s → Done s →
    S.waiting (S.stop a s) = false ∧ S.result (S.stop a s) = ok
  done {s : S.State} : Inv s → S.waiting s = false → Done s → S.outstanding s = false

structure Retired (S : Service ρ) (Inv : S.State → Prop) (s : S.State) : Prop where
  inv : Inv s
  returned : S.waiting s = false
  idle : S.active s = false

theorem Retired.event {S : Service ρ} {ok : ρ} {Inv : S.State → Prop} (C : Contract S ok Inv)
    {s : S.State} (h : Retired S Inv s) (e : S.Event) : S.event s e = none := by
  cases he : S.event s e with
  | none => rfl
  | some t =>
    have hidle : S.outstanding s = false := (Bool.or_eq_false_iff.mp h.idle).2
    exact absurd (hidle.symm.trans (C.calm h.inv h.returned he).1) Bool.false_ne_true

end NumarkNS6.Foundation.Services
