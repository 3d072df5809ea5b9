import Mathlib.Data.List.ReduceOption
import ServiceHost.Rpc.Interceptor
/-!
Which interceptors of a chain are asked, and on which requests.

A chain is a loop over its interceptors.  `ask` is the same loop for interceptors that do more than
judge; with interceptors that note what they are asked, and logging that writes its lines, it shows
which of them were called (`recorded_zipIdx`).  So chains compose, stop at the first rejection or
panic, and the others do not notice logging (`chain_laws`).
-/

namespace ServiceHost.Rpc

variable {R L : Type}

/-- What comes of a verdict when the request that it accepts is judged next. -/
def Verdict.andThen (v : Verdict R) (next : Interceptor R) : Verdict R :=
  match v with
  | .accept r => next r
  | .reject status => .reject status
  | .panic => .panic

theorem Verdict.accept_or (v : Verdict R) :
    (∃ r, v = .accept r) ∨ ∀ r, v ≠ .accept r := by
  cases v with
  | accept r => exact .inl ⟨r, rfl⟩
  | reject status => exact .inr fun r h => by cases h
  | panic => exact .inr fun r h => by cases h

namespace Chain

variable {i : Interceptor R} {chain : List (Interceptor R)} {r r' : R}

/-! ### Verdicts -/

theorem run_cons_of_accept (h : i r = .accept r') : run (i :: chain) r = run chain r' := by
  rw [run, h]

theorem run_cons_of_not_accept (h : ∀ r', i r ≠ .accept r') : run (i :: chain) r = i r := by
  rw [run]
  split
  next r' hr => exact absurd hr (h r')
  next => rfl

theorem andThen_of_not_accept {v : Verdict R} (h : ∀ r, v ≠ .accept r) (next : Interceptor R) :
    v.andThen next = v := by
  cases v with
  | accept r => exact absurd rfl (h r)
  | reject status => rfl
  | panic => rfl

/-- A chain of two parts judges as its parts do, one after the other. -/
theorem run_append (a b : List (Interceptor R)) (r : R) :
    run (a ++ b) r = (run a r).andThen (run b) := by
  induction a generalizing r with
  | nil => rfl
  | cons i a ih =>
    rw [List.cons_append]
    rcases (i r).accept_or with ⟨r', hr⟩ | hstops
    · rw [run_cons_of_accept hr, run_cons_of_accept hr, ih]
    · rw [run_cons_of_not_accept hstops, run_cons_of_not_accept hstops,
        andThen_of_not_accept hstops]

/-- Logging lets through what the others judge. -/
theorem run_spots {α : Type} (f : α → Interceptor R) (spots : List (Option α)) (r : R) :
    run (spots.map (·.elim .logging f)) r = run (spots.reduceOption.map f) r := by
  induction spots generalizing r with
  | nil => rfl
  | cons spot spots ih =>
    cases spot with
    | none => exact ih r
    | some a =>
      rw [List.reduceOption_cons_of_some, List.map_cons, List.map_cons, Option.elim_some]
      rcases (f a r).accept_or with ⟨r', hr⟩ | hstops
      · rw [run_cons_of_accept hr, run_cons_of_accept hr, ih]
      · rw [run_cons_of_not_accept hstops, run_cons_of_not_accept hstops]

/-! ### Requests -/

/-- All interceptors accept.  Each is asked on the request that the one before it has let through;
listed are the requests that they are asked on, and the last request is let through by all. -/
inductive Accepts : List (Interceptor R) → R → List R → R → Prop
  | nil (r : R) : Accepts [] r [] r
  | cons {i : Interceptor R} {chain : List (Interceptor R)} {r r' r'' : R} {requests : List R} :
      i r = .accept r' → Accepts chain r' requests r'' → Accepts (i :: chain) r (r :: requests) r''

theorem seen_cons_of_accept (h : i r = .accept r') : seen (i :: chain) r = r :: seen chain r' := by
  rw [seen, h]

theorem seen_cons_of_not_accept (h : ∀ r', i r ≠ .accept r') : seen (i :: chain) r = [r] := by
  rw [seen]
  split
  next r' hr => exact absurd hr (h r')
  next => rfl

/-- Either all interceptors accept, or those before the first that does not. -/
theorem seen_cases (chain : List (Interceptor R)) (r : R) :
    (∃ last, Accepts chain r (seen chain r) last ∧ run chain r = .accept last) ∨
    ∃ before i after earlier last, chain = before ++ i :: after ∧ Accepts before r earlier last ∧
      seen chain r = earlier ++ [last] ∧ run chain r = i last ∧ ∀ r', i last ≠ .accept r' := by
  induction chain generalizing r with
  | nil => exact .inl ⟨r, .nil r, rfl⟩
  | cons i chain ih =>
    rcases (i r).accept_or with ⟨r', hr⟩ | hstops
    · rw [run_cons_of_accept hr, seen_cons_of_accept hr]
      rcases ih r' with ⟨last, haccepts, hrun⟩ |
        ⟨before, j, after, earlier, last, rfl, haccepts, hseen, hrun, hstops⟩
      · exact .inl ⟨last, .cons hr haccepts, hrun⟩
      · exact .inr ⟨i :: before, j, after, r :: earlier, last, rfl, .cons hr haccepts,
          congrArg (r :: ·) hseen, hrun, hstops⟩
    · exact .inr ⟨[], i, chain, [], r, rfl, .nil r, seen_cons_of_not_accept hstops,
        run_cons_of_not_accept hstops, hstops⟩

/-! ### Watched chains -/

/-- Asks interceptors that may do more than judge, in order. -/
def ask {m : Type → Type} [Monad m] : List (R → m (Verdict R)) → R → m (Verdict R)
  | [], r => pure (.accept r)
  | i :: rest, r => do
    match ← i r with
    | .accept r' => ask rest r'
    | v => pure v

/-- With interceptors that only judge it is the run of the chain. -/
theorem ask_pure {m : Type → Type} [Monad m] [LawfulMonad m] (chain : List (Interceptor R))
    (r : R) :
    ask (chain.map fun i r => (pure (i r) : m (Verdict R))) r = pure (run chain r) := by
  induction chain generalizing r with
  | nil => rfl
  | cons i chain ih =>
    rw [List.map_cons, ask, pure_bind, run]
    cases i r with
    | accept r' => exact ih r'
    | reject status => rfl
    | panic => rfl

/-- What has been noted while a chain was asked: the requests with the labels of the interceptors
that were asked on them, and the lines of logging. -/
structure Notes (R L : Type) where
  asked : List (R × L) := []
  lines : List TraceInfo := []

/-- An interceptor that works on notes. -/
abbrev Watched (R L : Type) :=
  R → StateM (Notes R L) (Verdict R)

/-- An interceptor that notes each request that it is asked on, under its label. -/
def noting (i : Interceptor R × L) : Watched R L := fun r => do
  modify fun n => { n with asked := n.asked ++ [(r, i.2)] }
  pure (i.1 r)

/-- Logging, which writes the identification that it finds among the header fields of a request. -/
def logging (fields : R → Headers) : Watched R L := fun r => do
  modify fun n => { n with lines := n.lines ++ (traceInfo (fields r)).toList }
  pure (Interceptor.logging r)

/-- The verdict on a request, and the notes by then. -/
def recorded (chain : List (Watched R L)) (r : R) (notes : Notes R L := {}) :
    Verdict R × Notes R L :=
  (ask chain r).run notes

section Recorded

variable {l : L} {notes : Notes R L} {rest : List (Watched R L)}

theorem recorded_cons_of_accept (h : i r = .accept r') :
    recorded (noting (i, l) :: rest) r notes =
      recorded rest r' { notes with asked := notes.asked ++ [(r, l)] } := by
  show StateT.run (match i r with | .accept r' => ask rest r' | v => pure v) _ = _
  rw [h]
  rfl

theorem recorded_cons_of_not_accept (h : ∀ r', i r ≠ .accept r') :
    recorded (noting (i, l) :: rest) r notes =
      (i r, { notes with asked := notes.asked ++ [(r, l)] }) := by
  show StateT.run (match i r with | .accept r' => ask rest r' | v => pure v) _ = _
  split
  next r' hr => exact absurd hr (h r')
  next => rfl

/-- Where each interceptor notes its place, the notes are the requests that are seen, in order. -/
theorem recorded_zipIdx (chain : List (Interceptor R)) (k : Nat) (r : R) (notes : Notes R Nat) :
    recorded ((chain.zipIdx k).map noting) r notes =
      (run chain r, { notes with asked := notes.asked ++ (seen chain r).zipIdx k }) := by
  induction chain generalizing k r notes with
  | nil =>
    show (Verdict.accept r, notes) = (_, { notes with asked := notes.asked ++ [] })
    rw [List.append_nil]
    rfl
  | cons i chain ih =>
    rw [List.zipIdx_cons, List.map_cons]
    rcases (i r).accept_or with ⟨r', hr⟩ | hstops
    · rw [recorded_cons_of_accept hr, ih, run_cons_of_accept hr, seen_cons_of_accept hr,
        List.zipIdx_cons, List.append_assoc, List.singleton_append]
    · rw [recorded_cons_of_not_accept hstops, run_cons_of_not_accept hstops,
        seen_cons_of_not_accept hstops]
      rfl

/-- Logging in between may write lines, but it does not change what the others note. -/
theorem asked_recorded_spots (fields : R → Headers) (spots : List (Option (Interceptor R × L)))
    (r : R) {notes notes' : Notes R L} (h : notes.asked = notes'.asked) :
    (recorded (spots.map (·.elim (logging fields) noting)) r notes).2.asked =
      (recorded (spots.reduceOption.map noting) r notes').2.asked := by
  induction spots generalizing r notes notes' with
  | nil => exact h
  | cons spot spots ih =>
    cases spot with
    | none =>
      -- logging leaves a line behind and hands the request on
      exact ih r h
    | some p =>
      obtain ⟨i, l⟩ := p
      rw [List.reduceOption_cons_of_some, List.map_cons, List.map_cons, Option.elim_some]
      rcases (i r).accept_or with ⟨r', hr⟩ | hstops
      · rw [recorded_cons_of_accept hr, recorded_cons_of_accept hr]
        exact ih r' (congrArg (· ++ [(r, l)]) h)
      · rw [recorded_cons_of_not_accept hstops, recorded_cons_of_not_accept hstops]
        exact congrArg (· ++ [(r, l)]) h

end Recorded

/-! ### Chains -/

/-- **Chains of interceptors.**  A chain of two parts gives what the second part gives on the
request that the first one accepts, or else what the first one gives.  Asked are the interceptors up
to the first that does not accept, in order and once each, on the request that the one before has
let through; the verdict of the last one asked is that of the chain.  And logging anywhere in a
chain changes neither the verdict nor the requests that the others are asked on. -/
theorem chain_laws (a b chain : List (Interceptor R)) (spots : List (Option (Interceptor R × L)))
    (fields : R → Headers) (r : R) :
    run (a ++ b) r = (run a r).andThen (run b) ∧
    (∃ requests,
      recorded (chain.zipIdx.map noting) r = (run chain r, { asked := requests.zipIdx }) ∧
      ((∃ last, Accepts chain r requests last ∧ run chain r = .accept last) ∨
        ∃ before i after earlier last, chain = before ++ i :: after ∧
          Accepts before r earlier last ∧ requests = earlier ++ [last] ∧ run chain r = i last ∧
          ∀ r', i last ≠ .accept r')) ∧
    run (spots.map (·.elim .logging Prod.fst)) r = run (spots.reduceOption.map Prod.fst) r ∧
    (recorded (spots.map (·.elim (logging fields) noting)) r).2.asked =
      (recorded (spots.reduceOption.map noting) r).2.asked :=
  ⟨run_append a b r, ⟨seen chain r, recorded_zipIdx chain 0 r {}, seen_cases chain r⟩,
    run_spots Prod.fst spots r, asked_recorded_spots fields spots r rfl⟩

end Chain

end ServiceHost.Rpc
