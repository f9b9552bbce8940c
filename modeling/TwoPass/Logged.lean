import TwoPass.Event

/-! Computations that tell events and may fail. What was told before a failure stays told.
The lemmas erase the events, so a statement about results alone need not mention them. -/
namespace TwoPass

/-- The events told, in order, and the result. -/
structure Logged (ε α : Type) where
  events : List Event
  result : Except ε α

namespace Logged

variable {ε α β : Type}

instance : Monad (Logged ε) where
  pure a := ⟨[], .ok a⟩
  bind x f :=
    match x.result with
    | .error e => ⟨x.events, .error e⟩
    | .ok a => ⟨x.events ++ (f a).events, (f a).result⟩

def tell (events : List Event) : Logged ε Unit := ⟨events, .ok ()⟩

def fail (e : ε) : Logged ε α := ⟨[], .error e⟩

def lift (result : Except ε α) : Logged ε α := ⟨[], result⟩

/-- The same computation with its failure seen differently. -/
def mapError {ε' : Type} (f : ε → ε') (x : Logged ε α) : Logged ε' α :=
  ⟨x.events, x.result.mapError f⟩

/-- Runs over a list and joins the lists that come out, up to the first failure. -/
def flatMap (f : α → Logged ε (List β)) : List α → Logged ε (List β)
  | [] => pure []
  | a :: rest => do
    let first ← f a
    let others ← flatMap f rest
    pure (first ++ others)

@[simp] theorem result_pure (a : α) : (pure a : Logged ε α).result = .ok a := rfl

@[simp] theorem result_tell (events : List Event) : (tell events : Logged ε Unit).result = .ok () :=
  rfl

@[simp] theorem result_fail (e : ε) : (fail e : Logged ε α).result = .error e := rfl

@[simp] theorem result_lift (result : Except ε α) : (lift result).result = result := rfl

@[simp] theorem result_mapError {ε' : Type} (f : ε → ε') (x : Logged ε α) :
    (x.mapError f).result = x.result.mapError f := rfl

@[simp] theorem result_bind (x : Logged ε α) (f : α → Logged ε β) :
    (x >>= f).result = x.result >>= fun a => (f a).result := by
  cases h : x.result <;> simp [Bind.bind, Except.bind, h]

end Logged

end TwoPass
