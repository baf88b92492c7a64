import FirstMatch.Dispatch.Event

/-!
Computations that leave a trace: the events of the log and the calls of watched functors, in the
order in which they happen. A failure ends the computation and keeps the trace so far.
-/

namespace FirstMatch

inductive Signal where
  | event (event : Event)
  | called (name : String)
  deriving DecidableEq, Repr

@[ext] structure Traced (ε α : Type) where
  signals : List Signal
  result : Except ε α

namespace Traced

variable {ε ε' α β : Type}

def bind (x : Traced ε α) (f : α → Traced ε β) : Traced ε β :=
  match x.result with
  | .ok a => ⟨x.signals ++ (f a).signals, (f a).result⟩
  | .error e => ⟨x.signals, .error e⟩

instance : Monad (Traced ε) where
  pure a := ⟨[], .ok a⟩
  bind := bind

def emit (event : Event) : Traced ε Unit := ⟨[.event event], .ok ()⟩

def call (name : String) : Traced ε Unit := ⟨[.called name], .ok ()⟩

def fail (e : ε) : Traced ε α := ⟨[], .error e⟩

/-- A computation without a trace. -/
def ofExcept (result : Except ε α) : Traced ε α := ⟨[], result⟩

def mapError (f : ε → ε') (x : Traced ε α) : Traced ε' α := ⟨x.signals, x.result.mapError f⟩

def events (x : Traced ε α) : List Event :=
  x.signals.filterMap fun s => match s with
    | .event e => some e
    | .called _ => none

def calls (x : Traced ε α) : List String :=
  x.signals.filterMap fun s => match s with
    | .event _ => none
    | .called name => some name

theorem id_map' (x : Traced ε α) : id <$> x = x := by
  obtain ⟨signals, result⟩ := x
  cases result <;> simp [Functor.map, bind]

theorem pure_bind' (a : α) (f : α → Traced ε β) : pure a >>= f = f a := by
  simp [Bind.bind, pure, bind]

theorem bind_assoc' {γ : Type} (x : Traced ε α) (f : α → Traced ε β) (g : β → Traced ε γ) :
    x >>= f >>= g = x >>= fun a => f a >>= g := by
  obtain ⟨signals, result⟩ := x
  cases result with
  | error e => simp [Bind.bind, bind]
  | ok a =>
    simp only [Bind.bind, bind]
    cases (f a).result <;> simp

instance : LawfulMonad (Traced ε) := LawfulMonad.mk' _ id_map' pure_bind' bind_assoc'

end Traced

end FirstMatch
