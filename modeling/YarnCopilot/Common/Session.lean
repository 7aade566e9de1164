import YarnCopilot.Common.Word

/-!
# Sessions over one connection

A program that talks over a TCP connection is a state transformer on a `World`, which fixes
everything the program cannot choose:

* `script i` is the outcome of the `i`-th fallible step (a dial, a socket option, a deadline, a
  write): `none` when it succeeds, `some k` when it fails, a failed write having sent `k` bytes;
* `inbound` is what the peer still delivers, cut into the segments in which it arrives. A read that
  finds no segment left fails; this covers end of stream, timeouts and resets alike.

`trace` records what happened, in order. Every run of the program against every peer is one `World`,
so a theorem about all worlds is a theorem about all peers and all fault patterns.

`perform` runs a list of steps and stops at the first failure; `perform_cases` is its specification.
`Emits` is the frame rule: a program built from pieces that do only one kind of thing does only
that.
-/

namespace YarnCopilot

/-! ## Worlds -/

/-- What a program does to its connection, as the peer and the operating system see it. -/
inductive Event
  | opened
  | wrote (bs : Bytes)
  | received (bs : Bytes)
  | closed
deriving DecidableEq, Repr

/-- The bytes an event sends. -/
def Event.sent : Event → Bytes
  | .wrote bs => bs
  | _ => []

/-- The bytes a trace sends. -/
def sentBytes (evs : List Event) : Bytes := evs.flatMap Event.sent

@[simp] theorem sentBytes_nil : sentBytes [] = [] := rfl

@[simp] theorem sentBytes_append (xs ys : List Event) :
    sentBytes (xs ++ ys) = sentBytes xs ++ sentBytes ys := by
  simp [sentBytes]

/-- The environment of a session, and what the session has done so far. -/
structure World where
  script : ℕ → Option ℕ
  clock : ℕ
  inbound : List Bytes
  trace : List Event

/-- Go's run-time panics. -/
inductive Panic
  | makeSlice
  | sliceBounds
  | nilPointer
deriving DecidableEq, Repr

/-- How a call fails: an error it returns, or a panic. -/
inductive Fault (ε : Type)
  | err (e : ε)
  | panic (p : Panic)
deriving DecidableEq, Repr

/-- A program over one connection; the world survives an error, as it does in Go. -/
abbrev Session (ε : Type) := EStateM (Fault ε) World

variable {ε α β : Type}

@[simp] theorem except_ok_bind {ε : Type} (a : α) (f : α → Except ε β) :
    (Except.ok a >>= f) = f a := rfl

@[simp] theorem except_error_bind {ε : Type} (e : ε) (f : α → Except ε β) :
    (Except.error e >>= f) = .error e := rfl

namespace Session

/-- The world a program leaves behind, however it ends. -/
def final (p : Session ε α) (w : World) : World :=
  match p w with
  | .ok _ w' => w'
  | .error _ w' => w'

/-- The result of a program: what it returns, the error it returns, or its panic. -/
def outcome (p : Session ε α) (w : World) : Except (Fault ε) α :=
  match p w with
  | .ok a _ => .ok a
  | .error e _ => .error e

theorem bind_ok {p : Session ε α} {f : α → Session ε β} {w w' : World} {a : α}
    (h : p w = .ok a w') : (p >>= f) w = f a w' := by
  simp only [bind, EStateM.bind, h]

theorem bind_error {p : Session ε α} {f : α → Session ε β} {w w' : World} {e : Fault ε}
    (h : p w = .error e w') : (p >>= f) w = .error e w' := by
  simp only [bind, EStateM.bind, h]

/-- A sequence returns exactly when both parts do. -/
theorem bind_eq_ok_iff {p : Session ε α} {f : α → Session ε β} {w w'' : World} {b : β} :
    (p >>= f) w = .ok b w'' ↔ ∃ a w', p w = .ok a w' ∧ f a w' = .ok b w'' := by
  cases h : p w with
  | ok a w' =>
    rw [bind_ok h]
    constructor
    · exact fun hf => ⟨a, w', rfl, hf⟩
    · rintro ⟨_, _, ⟨⟩, hf⟩
      exact hf
  | error e w' =>
    rw [bind_error h]
    simp

/-- A sequence fails when its first part does, or its second part after the first. -/
theorem bind_eq_error_iff {p : Session ε α} {f : α → Session ε β} {w w'' : World} {e : Fault ε} :
    (p >>= f) w = .error e w'' ↔
      p w = .error e w'' ∨ ∃ a w', p w = .ok a w' ∧ f a w' = .error e w'' := by
  cases h : p w with
  | ok a w' =>
    rw [bind_ok h]
    constructor
    · exact fun hf => .inr ⟨a, w', rfl, hf⟩
    · rintro (h' | ⟨_, _, ⟨⟩, hf⟩)
      · cases h'
      · exact hf
  | error e w' =>
    rw [bind_error h]
    simp

theorem outcome_bind_ok {p : Session ε α} {f : α → Session ε β} {w w' : World} {a : α}
    (h : p w = .ok a w') : outcome (p >>= f) w = outcome (f a) w' := by
  simp only [outcome, bind_ok h]

theorem outcome_bind_error {p : Session ε α} {f : α → Session ε β} {w w' : World} {e : Fault ε}
    (h : p w = .error e w') : outcome (p >>= f) w = .error e := by
  simp only [outcome, bind_error h]

theorem outcome_eq_ok_iff {p : Session ε α} {w : World} {a : α} :
    outcome p w = .ok a ↔ ∃ w', p w = .ok a w' := by
  unfold outcome
  cases p w <;> simp

/-- Run pure code that may return an error or panic. -/
def pureResult : Except (Fault ε) α → Session ε α
  | .ok a => pure a
  | .error e => throw e

@[simp] theorem pureResult_ok (a : α) (w : World) :
    (pureResult (.ok a) : Session ε α) w = .ok a w := rfl

@[simp] theorem pureResult_error (e : Fault ε) (w : World) :
    (pureResult (.error e) : Session ε α) w = .error e w := rfl

theorem pureResult_eq_ok_iff {r : Except (Fault ε) α} {w w' : World} {a : α} :
    pureResult r w = .ok a w' ↔ r = .ok a ∧ w' = w := by
  cases r with
  | error e => simp
  | ok b => simp [eq_comm]

@[simp] theorem outcome_pureResult (r : Except (Fault ε) α) (w : World) :
    outcome (pureResult r) w = r := by
  cases r <;> rfl

theorem outcome_pureResult_bind (r : Except (Fault ε) α) (f : α → Session ε β) (w : World) :
    outcome (pureResult r >>= f) w = r >>= fun a => outcome (f a) w := by
  cases r <;> rfl

end Session

/-! ## Fallible steps -/

/-- A step whose outcome the environment decides. `configure` stands for the steps that send
nothing: socket options, deadlines and the checks on a fresh connection. -/
inductive Step
  | dial
  | configure
  | write (bs : Bytes)
deriving DecidableEq, Repr

/-- The events of a step that succeeds. -/
def Step.done : Step → List Event
  | .dial => [.opened]
  | .configure => []
  | .write bs => [.wrote bs]

/-- The events of a step that fails: a write may have sent part of its buffer. -/
def Step.cut : Step → ℕ → List Event
  | .write bs, k => [.wrote (bs.take k)]
  | _, _ => []

/-- The bytes a step sends when it succeeds. -/
def Step.bytes (s : Step) : Bytes := sentBytes s.done

/-- The world after all of `ss` succeeded. -/
def World.after (w : World) (ss : List Step) : World :=
  { w with clock := w.clock + ss.length, trace := w.trace ++ ss.flatMap Step.done }

/-- All of `ss`, started in `w`, succeed. -/
def World.Succeeds (w : World) (ss : List Step) : Prop :=
  ∀ i < ss.length, w.script (w.clock + i) = none

theorem World.after_after (w : World) (xs ys : List Step) :
    (w.after xs).after ys = w.after (xs ++ ys) := by
  simp [World.after, Nat.add_assoc]

@[simp] theorem World.after_script (w : World) (ss : List Step) : (w.after ss).script = w.script :=
  rfl

@[simp] theorem World.after_clock (w : World) (ss : List Step) :
    (w.after ss).clock = w.clock + ss.length := rfl

@[simp] theorem World.after_inbound (w : World) (ss : List Step) :
    (w.after ss).inbound = w.inbound := rfl

@[simp] theorem World.after_trace (w : World) (ss : List Step) :
    (w.after ss).trace = w.trace ++ ss.flatMap Step.done := rfl

namespace Session

/-- One fallible step; on failure the call returns the error `e`. -/
def attempt (e : ε) (s : Step) : Session ε Unit := fun w =>
  match w.script w.clock with
  | none => .ok () { w with clock := w.clock + 1, trace := w.trace ++ s.done }
  | some k => .error (.err e) { w with clock := w.clock + 1, trace := w.trace ++ s.cut k }

theorem attempt_of_none {e : ε} {s : Step} {w : World} (h : w.script w.clock = none) :
    attempt e s w = .ok () (w.after [s]) := by
  simp [attempt, h, World.after]

theorem attempt_of_some {e : ε} {s : Step} {w : World} {k : ℕ} (h : w.script w.clock = some k) :
    attempt e s w =
      .error (.err e) { w with clock := w.clock + 1, trace := w.trace ++ s.cut k } := by
  simp only [attempt, h]

theorem attempt_eq_ok_iff {e : ε} {s : Step} {w w' : World} {u : Unit} :
    attempt e s w = .ok u w' ↔ w.Succeeds [s] ∧ w' = w.after [s] := by
  have hsucc : w.Succeeds [s] ↔ w.script w.clock = none := by simp [World.Succeeds]
  rw [hsucc]
  cases h : w.script w.clock with
  | none => simp [attempt_of_none h, eq_comm]
  | some k => simp [attempt_of_some h]

/-- A sequence of fallible steps, abandoned at the first failure. -/
def perform (e : ε) : List Step → Session ε Unit
  | [] => pure ()
  | s :: ss => do
    attempt e s
    perform e ss

/-- The world after the connection was closed. -/
def closed (w : World) : World := { w with trace := w.trace ++ [.closed] }

/-- Run `p` and close the connection when it returns, with or without an error. A panic unwinds
past the `Close`. -/
def thenClose (p : Session ε α) : Session ε α := fun w =>
  match p w with
  | .ok a w' => .ok a (closed w')
  | .error (.err e) w' => .error (.err e) (closed w')
  | .error (.panic q) w' => .error (.panic q) w'

end Session

/-- `w'` is `w` after a run of `ss` that failed at one of its steps. -/
structure World.CutShort (w : World) (ss : List Step) (w' : World) : Prop where
  script_eq : w'.script = w.script
  inbound_eq : w'.inbound = w.inbound
  trace_eq : ∃ pre s post k, ss = pre ++ s :: post ∧
    w'.trace = w.trace ++ (pre.flatMap Step.done ++ s.cut k)

/-- `w'` is `w` after a program that only writes was interrupted while sending `out`: some prefix
of `out` went out, and nothing else happened. -/
structure World.Interrupted (w : World) (out : Bytes) (w' : World) : Prop where
  script_eq : w'.script = w.script
  inbound_eq : w'.inbound = w.inbound
  trace_eq : ∃ evs, w'.trace = w.trace ++ evs ∧ (∀ ev ∈ evs, ∃ bs, ev = .wrote bs) ∧
    sentBytes evs <+: out

/-- A step that does not open a connection. -/
def Step.IsLocal (s : Step) : Prop := s ≠ .dial

theorem Step.IsLocal.done_wrote {s : Step} (h : s.IsLocal) : ∀ ev ∈ s.done, ∃ bs, ev = .wrote bs := by
  cases s with
  | dial => exact absurd rfl h
  | configure => simp [Step.done]
  | write bs => simp [Step.done]

theorem Step.cut_wrote (s : Step) (k : ℕ) : ∀ ev ∈ s.cut k, ∃ bs, ev = .wrote bs := by
  cases s <;> simp [Step.cut]

theorem Step.cut_sent_prefix (s : Step) (k : ℕ) : sentBytes (s.cut k) <+: s.bytes := by
  cases s with
  | dial => exact List.nil_prefix
  | configure => exact List.nil_prefix
  | write bs =>
    simpa [Step.cut, Step.bytes, Step.done, sentBytes, Event.sent] using List.take_prefix k bs

theorem sentBytes_flatMap_done (ss : List Step) :
    sentBytes (ss.flatMap Step.done) = ss.flatMap Step.bytes := by
  simp only [sentBytes, List.flatMap_assoc]
  rfl

/-- A run of local steps that was cut short sent a prefix of what the whole run sends. -/
theorem World.CutShort.interrupted {w w' : World} {ss : List Step} (h : w.CutShort ss w')
    (hlocal : ∀ s ∈ ss, s.IsLocal) : w.Interrupted (ss.flatMap Step.bytes) w' := by
  obtain ⟨pre, s, post, k, rfl, htrace⟩ := h.trace_eq
  refine ⟨h.script_eq, h.inbound_eq, _, htrace, ?_, ?_⟩
  · intro ev hev
    rw [List.mem_append, List.mem_flatMap] at hev
    rcases hev with ⟨t, ht, hev⟩ | hev
    · exact (hlocal t (by simp [ht])).done_wrote ev hev
    · exact s.cut_wrote k ev hev
  · rw [sentBytes_append, sentBytes_flatMap_done, List.flatMap_append, List.flatMap_cons,
      List.prefix_append_right_inj]
    exact (s.cut_sent_prefix k).trans (List.prefix_append _ _)

namespace Session

/-- Specification of `perform`: either every step succeeds, or the run returns the error after
being cut short. It never panics. -/
theorem perform_cases (e : ε) : ∀ (ss : List Step) (w : World),
    (w.Succeeds ss ∧ perform e ss w = .ok () (w.after ss)) ∨
      (¬ w.Succeeds ss ∧ ∃ w', perform e ss w = .error (.err e) w' ∧ w.CutShort ss w')
  | [], w => by
    left
    refine ⟨fun i hi => absurd hi (Nat.not_lt_zero i), ?_⟩
    simp only [perform, World.after, List.flatMap_nil, List.append_nil, List.length_nil,
      Nat.add_zero]
    rfl
  | s :: ss, w => by
    cases hs : w.script w.clock with
    | some k =>
      right
      refine ⟨fun h => ?_, { w with clock := w.clock + 1, trace := w.trace ++ s.cut k }, ?_,
        rfl, rfl, [], s, ss, k, rfl, rfl⟩
      · have := h 0 (by simp)
        simp [hs] at this
      · exact bind_error (attempt_of_some hs)
    | none =>
      -- the first step succeeds; the rest runs from the world after it
      have hrun : perform e (s :: ss) w = perform e ss (w.after [s]) :=
        bind_ok (attempt_of_none hs)
      have hsucc : w.Succeeds (s :: ss) ↔ (w.after [s]).Succeeds ss := by
        constructor
        · intro h i hi
          have := h (i + 1) (by simpa using hi)
          simpa [Nat.add_assoc, Nat.add_comm 1 i] using this
        · intro h i hi
          cases i with
          | zero => simpa using hs
          | succ i =>
            have := h i (by simpa using hi)
            simpa [Nat.add_assoc, Nat.add_comm 1 i] using this
      rcases perform_cases e ss (w.after [s]) with ⟨hok, hres⟩ | ⟨hbad, w', hres, hcut⟩
      · left
        exact ⟨hsucc.mpr hok, by rw [hrun, hres, World.after_after]; rfl⟩
      · right
        obtain ⟨pre, t, post, k, rfl, htrace⟩ := hcut.trace_eq
        refine ⟨fun h => hbad (hsucc.mp h), w', by rw [hrun, hres], hcut.script_eq,
          hcut.inbound_eq, s :: pre, t, post, k, rfl, ?_⟩
        rw [htrace]
        simp

theorem perform_singleton (e : ε) (s : Step) : perform e [s] = attempt e s := by
  simp only [perform, bind_pure_unit]

/-- Running two lists one after the other is running their concatenation. -/
theorem perform_append (e : ε) : ∀ (xs ys : List Step),
    perform e (xs ++ ys) = (do perform e xs; perform e ys)
  | [], _ => rfl
  | x :: xs, ys => by
    simp only [List.cons_append, perform, perform_append e xs ys, bind_assoc]

end Session

theorem World.succeeds_congr {w w' : World} (hscript : w'.script = w.script)
    (hclock : w'.clock = w.clock) (ss : List Step) : w'.Succeeds ss ↔ w.Succeeds ss := by
  rw [World.Succeeds, World.Succeeds, hscript, hclock]

theorem World.succeeds_append {w : World} {xs ys : List Step} :
    w.Succeeds (xs ++ ys) ↔ w.Succeeds xs ∧ (w.after xs).Succeeds ys := by
  constructor
  · intro h
    refine ⟨fun i hi => h i (by simp; omega), fun i hi => ?_⟩
    have := h (xs.length + i) (by simpa using hi)
    simpa [Nat.add_assoc] using this
  · rintro ⟨hx, hy⟩ i hi
    by_cases hlt : i < xs.length
    · exact hx i hlt
    · have := hy (i - xs.length) (by simp at hi; omega)
      rw [World.after_clock, World.after_script,
        show w.clock + xs.length + (i - xs.length) = w.clock + i by omega] at this
      exact this

/-! ## Reads -/

/-- One `Read` into a buffer of `n` bytes: what the next segment holds, at most `n` bytes of it.
A zero-length read returns at once; with no segment left the read fails. -/
def takeSome (n : ℕ) (segs : List Bytes) : Option (Bytes × List Bytes) :=
  if n = 0 then some ([], segs)
  else match segs with
    | [] => none
    | seg :: segs => some (seg.take n, if seg.length ≤ n then segs else seg.drop n :: segs)

/-- `io.ReadFull` of `n` bytes: read until the buffer is full. -/
def takeFull : ℕ → List Bytes → Option (Bytes × List Bytes)
  | n, [] => if n = 0 then some ([], []) else none
  | n, seg :: segs =>
    if n = 0 then some ([], seg :: segs)
    else if seg.length ≤ n then
      (takeFull (n - seg.length) segs).map fun (bs, rest) => (seg ++ bs, rest)
    else some (seg.take n, seg.drop n :: segs)

/-- A zeroed buffer of `n` bytes after `bs` was copied to its start. -/
def fill (n : ℕ) (bs : Bytes) : Bytes := bs ++ List.replicate (n - bs.length) 0

theorem fill_of_length {n : ℕ} {bs : Bytes} (h : bs.length = n) : fill n bs = bs := by
  simp [fill, h]

/-- A read hands out a prefix of the stream, no longer than the buffer, and leaves the rest. -/
theorem takeSome_spec {n : ℕ} {segs rest : List Bytes} {bs : Bytes}
    (h : takeSome n segs = some (bs, rest)) :
    segs.flatten = bs ++ rest.flatten ∧ bs.length ≤ n := by
  unfold takeSome at h
  split at h
  · simp only [Option.some.injEq, Prod.mk.injEq] at h
    obtain ⟨rfl, rfl⟩ := h
    simp
  · cases segs with
    | nil => simp at h
    | cons seg segs =>
      simp only [Option.some.injEq, Prod.mk.injEq] at h
      obtain ⟨rfl, rfl⟩ := h
      refine ⟨?_, by simp⟩
      by_cases hlen : seg.length ≤ n
      · simp [hlen, List.take_of_length_le hlen]
      · simp [hlen, ← List.append_assoc]

/-- Reading in full does not depend on how the stream is cut: it takes the first `n` bytes. -/
theorem takeFull_of_le : ∀ {n : ℕ} {segs : List Bytes}, n ≤ segs.flatten.length →
    ∃ rest, takeFull n segs = some (segs.flatten.take n, rest) ∧
      rest.flatten = segs.flatten.drop n
  | n, [], h => by
    have hn : n = 0 := by simpa using h
    subst hn
    exact ⟨[], rfl, rfl⟩
  | n, seg :: segs, h => by
    rw [takeFull]
    by_cases hn : n = 0
    · subst hn
      exact ⟨seg :: segs, by simp, by simp⟩
    rw [if_neg hn]
    by_cases hlen : seg.length ≤ n
    · have hrest : n - seg.length ≤ segs.flatten.length := by
        simp only [List.flatten_cons, List.length_append] at h
        omega
      obtain ⟨rest, htake, hdrop⟩ := takeFull_of_le hrest
      refine ⟨rest, ?_, ?_⟩
      · rw [if_pos hlen, htake, Option.map_some, List.flatten_cons, List.take_append,
          List.take_of_length_le hlen]
      · rw [hdrop, List.flatten_cons, List.drop_append, List.drop_of_length_le hlen,
          List.nil_append]
    · rw [if_neg hlen]
      refine ⟨seg.drop n :: segs, ?_, ?_⟩
      · rw [List.flatten_cons, List.take_append_of_le_length (by omega)]
      · rw [List.flatten_cons, List.flatten_cons, List.drop_append_of_le_length (by omega)]

/-- A stream shorter than the buffer cannot fill it. -/
theorem takeFull_of_lt : ∀ {n : ℕ} {segs : List Bytes}, segs.flatten.length < n →
    takeFull n segs = none
  | n, [], h => by
    rw [takeFull, if_neg (by simp at h; omega)]
  | n, seg :: segs, h => by
    simp only [List.flatten_cons, List.length_append] at h
    rw [takeFull, if_neg (by omega), if_pos (by omega),
      takeFull_of_lt (by omega), Option.map_none]

namespace Session

/-- One read of at most `n` bytes. -/
def read (e : ε) (n : ℕ) : Session ε Bytes := fun w =>
  match takeSome n w.inbound with
  | some (bs, rest) => .ok bs { w with inbound := rest, trace := w.trace ++ [.received bs] }
  | none => .error (.err e) w

theorem read_of_some {e : ε} {n : ℕ} {w : World} {bs : Bytes} {rest : List Bytes}
    (h : takeSome n w.inbound = some (bs, rest)) : Session.read e n w =
      .ok bs { w with inbound := rest, trace := w.trace ++ [.received bs] } := by
  simp only [Session.read, h]

theorem read_of_none {e : ε} {n : ℕ} {w : World} (h : takeSome n w.inbound = none) :
    Session.read e n w = .error (.err e) w := by
  simp only [Session.read, h]

theorem read_eq_ok_iff {e : ε} {n : ℕ} {w w' : World} {bs : Bytes} :
    Session.read e n w = .ok bs w' ↔ ∃ rest, takeSome n w.inbound = some (bs, rest) ∧
      w' = { w with inbound := rest, trace := w.trace ++ [.received bs] } := by
  cases h : takeSome n w.inbound with
  | none => simp [read_of_none h]
  | some r =>
    obtain ⟨bs', rest⟩ := r
    rw [read_of_some h]
    constructor
    · rintro ⟨⟩
      exact ⟨rest, rfl, rfl⟩
    · rintro ⟨_, ⟨⟩, rfl⟩
      rfl

/-- Read exactly `n` bytes. -/
def readFull (e : ε) (n : ℕ) : Session ε Bytes := fun w =>
  match takeFull n w.inbound with
  | some (bs, rest) => .ok bs { w with inbound := rest, trace := w.trace ++ [.received bs] }
  | none => .error (.err e) w

theorem readFull_of_some {e : ε} {n : ℕ} {w : World} {bs : Bytes} {rest : List Bytes}
    (h : takeFull n w.inbound = some (bs, rest)) : readFull e n w =
      .ok bs { w with inbound := rest, trace := w.trace ++ [.received bs] } := by
  simp only [readFull, h]

theorem readFull_of_none {e : ε} {n : ℕ} {w : World} (h : takeFull n w.inbound = none) :
    readFull e n w = .error (.err e) w := by
  simp only [readFull, h]

end Session

/-! ## The frame rule -/

namespace Session

/-- Everything `p` does is of kind `P`. -/
def Emits (P : Event → Prop) (p : Session ε α) : Prop :=
  ∀ w, ∃ evs, (final p w).trace = w.trace ++ evs ∧ ∀ ev ∈ evs, P ev

variable {P : Event → Prop}

/-- A sequence does what its parts do. -/
theorem Emits.bind {p : Session ε α} {f : α → Session ε β} (hp : Emits P p)
    (hf : ∀ a, Emits P (f a)) : Emits P (p >>= f) := by
  intro w
  obtain ⟨evs, htrace, hevs⟩ := hp w
  cases h : p w with
  | error e w' =>
    refine ⟨evs, ?_, hevs⟩
    rw [← htrace, final, final, bind_error h, h]
  | ok a w' =>
    obtain ⟨evs', htrace', hevs'⟩ := hf a w'
    simp only [final, h] at htrace
    refine ⟨evs ++ evs', ?_, fun ev hev => ?_⟩
    · rw [final, bind_ok h, ← List.append_assoc, ← htrace, ← htrace', final]
    · rcases List.mem_append.mp hev with hev | hev
      · exact hevs ev hev
      · exact hevs' ev hev

/-- A program that leaves the trace alone. -/
theorem Emits.of_trace_eq {p : Session ε α} (h : ∀ w, (final p w).trace = w.trace) : Emits P p :=
  fun w => ⟨[], by rw [h w, List.append_nil], by simp⟩

theorem Emits.pureResult (r : Except (Fault ε) α) : Emits P (pureResult r) :=
  .of_trace_eq fun w => by cases r <;> rfl

theorem Emits.perform (e : ε) {ss : List Step} (hlocal : ∀ s ∈ ss, s.IsLocal)
    (hwrote : ∀ bs, P (.wrote bs)) : Emits P (perform e ss) := by
  intro w
  rcases perform_cases e ss w with ⟨_, h⟩ | ⟨_, w', h, hcut⟩
  · refine ⟨ss.flatMap Step.done, by rw [final, h]; rfl, fun ev hev => ?_⟩
    obtain ⟨s, hs, hev⟩ := List.mem_flatMap.mp hev
    obtain ⟨bs, rfl⟩ := (hlocal s hs).done_wrote ev hev
    exact hwrote bs
  · obtain ⟨evs, htrace, hevs, _⟩ := (hcut.interrupted hlocal).trace_eq
    refine ⟨evs, by rw [final, h]; exact htrace, fun ev hev => ?_⟩
    obtain ⟨bs, rfl⟩ := hevs ev hev
    exact hwrote bs

theorem Emits.attempt (e : ε) {s : Step} (hlocal : s.IsLocal) (hwrote : ∀ bs, P (.wrote bs)) :
    Emits P (attempt e s) := by
  rw [← perform_singleton]
  exact .perform e (by simpa using hlocal) hwrote

theorem Emits.read (e : ε) (n : ℕ) (hreceived : ∀ bs, P (.received bs)) :
    Emits P (Session.read e n) := by
  intro w
  cases h : takeSome n w.inbound with
  | none => exact ⟨[], by simp [final, read_of_none h], by simp⟩
  | some r => exact ⟨[.received r.1], by rw [final, read_of_some h], by simpa using hreceived r.1⟩

theorem Emits.readFull (e : ε) (n : ℕ) (hreceived : ∀ bs, P (.received bs)) :
    Emits P (readFull e n) := by
  intro w
  cases h : takeFull n w.inbound with
  | none => exact ⟨[], by simp [final, readFull_of_none h], by simp⟩
  | some r =>
    exact ⟨[.received r.1], by rw [final, readFull_of_some h], by simpa using hreceived r.1⟩

/-- `p` sends `out`: a prefix of it in any case, and all of it when it returns normally. -/
def SendsUpTo (p : Session ε α) (out : Bytes) : Prop :=
  ∀ w, ∃ evs, (final p w).trace = w.trace ++ evs ∧ sentBytes evs <+: out ∧
    ∀ a w', p w = .ok a w' → sentBytes evs = out

/-- A sequence sends what its parts send. -/
theorem SendsUpTo.bind {p : Session ε α} {f : α → Session ε β} {out out' : Bytes}
    (hp : SendsUpTo p out) (hf : ∀ a, SendsUpTo (f a) out') : SendsUpTo (p >>= f) (out ++ out') := by
  intro w
  obtain ⟨evs, htrace, hsent, hall⟩ := hp w
  cases h : p w with
  | error e w' =>
    refine ⟨evs, ?_, hsent.trans (List.prefix_append _ _), fun b w'' hb => ?_⟩
    · rw [← htrace, final, final, bind_error h, h]
    · rw [bind_error h] at hb
      cases hb
  | ok a w' =>
    obtain ⟨evs', htrace', hsent', hall'⟩ := hf a w'
    simp only [final, h] at htrace
    refine ⟨evs ++ evs', ?_, ?_, fun b w'' hb => ?_⟩
    · rw [final, bind_ok h, ← List.append_assoc, ← htrace, ← htrace', final]
    · rw [sentBytes_append, hall a w' h]
      exact (List.prefix_append_right_inj out).mpr hsent'
    · rw [bind_ok h] at hb
      rw [sentBytes_append, hall a w' h, hall' b w'' hb]

/-- A program that writes nothing. -/
theorem SendsUpTo.of_emits {p : Session ε α} (h : Emits (fun ev => ev.sent = []) p) :
    SendsUpTo p [] := by
  intro w
  obtain ⟨evs, htrace, hevs⟩ := h w
  have hnil : sentBytes evs = [] := by simpa [sentBytes] using hevs
  exact ⟨evs, htrace, by rw [hnil], fun _ _ _ => hnil⟩

theorem SendsUpTo.perform (e : ε) (ss : List Step) :
    SendsUpTo (perform e ss) (ss.flatMap Step.bytes) := by
  intro w
  rcases perform_cases e ss w with ⟨_, h⟩ | ⟨_, w', h, hcut⟩
  · refine ⟨ss.flatMap Step.done, by rw [final, h]; rfl, ?_, fun _ _ _ => ?_⟩ <;>
      rw [sentBytes_flatMap_done]
  · obtain ⟨pre, s, post, k, rfl, htrace⟩ := hcut.trace_eq
    refine ⟨_, by rw [final, h]; exact htrace, ?_, fun a w'' ha => ?_⟩
    · rw [sentBytes_append, sentBytes_flatMap_done, List.flatMap_append, List.flatMap_cons,
        List.prefix_append_right_inj]
      exact (s.cut_sent_prefix k).trans (List.prefix_append _ _)
    · rw [h] at ha
      cases ha

/-- Closing the connection afterwards sends nothing more. -/
theorem SendsUpTo.thenClose {p : Session ε α} {out : Bytes} (hp : SendsUpTo p out) :
    SendsUpTo (thenClose p) out := by
  intro w
  obtain ⟨evs, htrace, hsent, hall⟩ := hp w
  have hclosed : sentBytes (evs ++ [.closed]) = sentBytes evs := by
    simp [sentBytes, Event.sent]
  cases h : p w with
  | ok a w' =>
    simp only [final, h] at htrace
    refine ⟨evs ++ [.closed], ?_, hclosed ▸ hsent, fun b w'' _ => ?_⟩
    · simp [final, Session.thenClose, h, closed, htrace]
    · rw [hclosed, hall a w' h]
  | error f w' =>
    simp only [final, h] at htrace
    cases f with
    | err e =>
      refine ⟨evs ++ [.closed], ?_, hclosed ▸ hsent, fun b w'' hb => ?_⟩
      · simp [final, Session.thenClose, h, closed, htrace]
      · simp [Session.thenClose, h] at hb
    | panic q =>
      refine ⟨evs, ?_, hsent, fun b w'' hb => ?_⟩
      · simp [final, Session.thenClose, h, htrace]
      · simp [Session.thenClose, h] at hb

end Session

end YarnCopilot
