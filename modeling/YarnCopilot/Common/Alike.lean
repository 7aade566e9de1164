import YarnCopilot.Common.Session

/-!
# Sessions that end alike

Two sessions end alike when no peer can make them end differently: against the same peer and with
the same faults they return related results or the same fault, after as many steps and as much read.
What they write may differ. The rules follow the ways to build a session, so that two programs that
differ in a few places are compared at these places only.
-/

namespace YarnCopilot

/-- Worlds that differ in their traces only. -/
structure World.Alike (w w' : World) : Prop where
  script : w'.script = w.script
  clock : w'.clock = w.clock
  inbound : w'.inbound = w.inbound

namespace Session

variable {ε α β γ δ : Type}

/-- Two ends of a session: related results or the same fault, in worlds that are alike. -/
inductive SameEnd (R : α → β → Prop) :
    EStateM.Result (Fault ε) World α → EStateM.Result (Fault ε) World β → Prop
  | ok {a b u u'} (result : R a b) (world : u.Alike u') : SameEnd R (.ok a u) (.ok b u')
  | error {e u u'} (world : u.Alike u') : SameEnd R (.error e u) (.error e u')

/-- Started in worlds that are alike, the two sessions end alike. -/
def EndAlike (R : α → β → Prop) (p : Session ε α) (q : Session ε β) : Prop :=
  ∀ w w', w.Alike w' → SameEnd R (p w) (q w')

variable {R : α → β → Prop}

namespace EndAlike

theorem pure {a : α} {b : β} (h : R a b) :
    EndAlike R (Pure.pure a : Session ε α) (Pure.pure b) :=
  fun _ _ hw => .ok h hw

theorem throw (e : Fault ε) :
    EndAlike R (MonadExcept.throw e : Session ε α) (MonadExcept.throw e) :=
  fun _ _ hw => .error hw

/-- Sequences end alike when their parts do. -/
theorem bind {S : γ → δ → Prop} {p : Session ε α} {q : Session ε β} {f : α → Session ε γ}
    {g : β → Session ε δ} (h : EndAlike R p q) (hfg : ∀ a b, R a b → EndAlike S (f a) (g b)) :
    EndAlike S (p >>= f) (q >>= g) := by
  intro w w' hw
  have hpq := h w w' hw
  generalize hp : p w = x at hpq
  generalize hq : q w' = y at hpq
  cases hpq with
  | ok hab hu =>
    rw [bind_ok hp, bind_ok hq]
    exact hfg _ _ hab _ _ hu
  | error hu =>
    rw [bind_error hp, bind_error hq]
    exact .error hu

/-- The same first part hands the same result on. -/
theorem bind_same {S : γ → δ → Prop} {p : Session ε α} {f : α → Session ε γ}
    {g : α → Session ε δ} (h : EndAlike Eq p p) (hfg : ∀ a, EndAlike S (f a) (g a)) :
    EndAlike S (p >>= f) (p >>= g) := by
  refine h.bind ?_
  rintro a _ rfl
  exact hfg a

theorem pureResult (r : Except (Fault ε) α) :
    EndAlike Eq (Session.pureResult r) (Session.pureResult r) := by
  cases r with
  | ok a => exact pure rfl
  | error e => exact throw e

/-- The environment decides a step without looking at it. -/
theorem attempt (e : ε) (s s' : Step) :
    EndAlike Eq (Session.attempt e s) (Session.attempt e s') := by
  intro w w' hw
  have hscript : w'.script w'.clock = w.script w.clock := by rw [hw.script, hw.clock]
  cases hs : w.script w.clock with
  | none =>
    rw [attempt_of_none hs, attempt_of_none (hscript.trans hs)]
    exact .ok rfl ⟨hw.script, congrArg (· + 1) hw.clock, hw.inbound⟩
  | some k =>
    rw [attempt_of_some hs, attempt_of_some (hscript.trans hs)]
    exact .error ⟨hw.script, congrArg (· + 1) hw.clock, hw.inbound⟩

theorem read (e : ε) (n : ℕ) : EndAlike Eq (Session.read e n) (Session.read e n) := by
  intro w w' hw
  cases h : takeSome n w.inbound with
  | none =>
    rw [read_of_none h, read_of_none (hw.inbound ▸ h)]
    exact .error hw
  | some r =>
    rw [read_of_some h, read_of_some (hw.inbound ▸ h)]
    exact .ok rfl ⟨hw.script, hw.clock, rfl⟩

theorem readFull (e : ε) (n : ℕ) : EndAlike Eq (Session.readFull e n) (Session.readFull e n) := by
  intro w w' hw
  cases h : takeFull n w.inbound with
  | none =>
    rw [readFull_of_none h, readFull_of_none (hw.inbound ▸ h)]
    exact .error hw
  | some r =>
    rw [readFull_of_some h, readFull_of_some (hw.inbound ▸ h)]
    exact .ok rfl ⟨hw.script, hw.clock, rfl⟩

theorem thenClose {p : Session ε α} {q : Session ε β} (h : EndAlike R p q) :
    EndAlike R (Session.thenClose p) (Session.thenClose q) := by
  intro w w' hw
  have hpq := h w w' hw
  unfold Session.thenClose
  generalize p w = x at hpq
  generalize q w' = y at hpq
  cases hpq with
  | ok hab hu => exact .ok hab ⟨hu.script, hu.clock, hu.inbound⟩
  | @error e u u' hu =>
    cases e with
    | err e => exact .error ⟨hu.script, hu.clock, hu.inbound⟩
    | panic k => exact .error hu

/-- Sessions that end alike have the same outcome. -/
theorem outcome_eq {p q : Session ε α} (h : EndAlike Eq p q) (w : World) :
    outcome q w = outcome p w := by
  have hpq := h w w ⟨rfl, rfl, rfl⟩
  unfold outcome
  generalize p w = x at hpq
  generalize q w = y at hpq
  cases hpq with
  | ok hab hu => exact congrArg _ hab.symm
  | error hu => rfl

end EndAlike

end Session

end YarnCopilot
