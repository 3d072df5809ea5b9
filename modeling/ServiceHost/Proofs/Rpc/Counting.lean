import ServiceHost.Proofs.Metrics.Samples
import ServiceHost.Rpc.Counting
/-!
Counting calls while many are under way.

Calls begin, and the inner service comes to a result for them in any order, or never; a caller may
give up in between, and counters may be read at any time.  The layer hands every result through,
whether it counts or not, and counts a call in the step in which its result is there.  So the
counters of a method always add up to the number of its durations.

The main result is `Layer.counted_once`.
-/

namespace ServiceHost.Rpc

open Metrics (CallMeter)

/-! ### The layer at work -/

/-- A call under way: its target, and when it began. -/
structure Call where
  target : String
  began : Nat
  deriving DecidableEq, Repr

/-- A layer with its meter, if it has one, the time, and the calls, each at its place as long as it
is under way. -/
structure Layer where
  meter : Option CallMeter
  now : Nat := 0
  calls : List (Option Call) := []
  deriving DecidableEq, Repr

namespace Layer

/-- What happens to a layer: a call begins, time passes, the inner service comes to a result or to
none yet, a caller gives up, or a counter is read. -/
inductive Step where
  | begin (target : String)
  | elapse (time : Nat)
  | proceed (place : Nat) (result : CallResult)
  | giveUp (place : Nat)
  | count (method status : String)
  deriving DecidableEq, Repr

/-- A layer before its first call. -/
def start (meter : Option CallMeter) : Layer :=
  { meter := meter }

/-- The call at a place, as long as it is under way. -/
def underWay (l : Layer) (place : Nat) : Option Call :=
  l.calls[place]?.join

/-- Calls with a result are over. -/
def after (calls : List (Option Call)) (place : Nat) : CallResult → List (Option Call)
  | .unfinished => calls
  | _ => calls.set place none

/-- Does a step, and tells what the caller gets who waits for the call in question. -/
def step (l : Layer) : Step → Layer × Option CallResult
  | .begin target => ({ l with calls := l.calls ++ [some ⟨target, l.now⟩] }, none)
  | .elapse time => ({ l with now := l.now + time }, none)
  | .proceed place result =>
    match l.underWay place with
    | some call =>
      let (meter, result') := countCall l.meter call.target result ⟨l.now - call.began⟩
      ({ l with meter := meter, calls := after l.calls place result }, some result')
    | none => (l, none)
  | .giveUp place => ({ l with calls := l.calls.set place none }, none)
  | .count method status =>
    ({ l with meter := l.meter.map fun m => (m.count method status).1 }, none)

/-- Does steps one after the other. -/
def run (l : Layer) : List Step → Layer × List (Option CallResult)
  | [] => (l, [])
  | s :: rest => ((run (l.step s).1 rest).1, (l.step s).2 :: (run (l.step s).1 rest).2)

/-- What the inner service gives in a step. -/
def given (l : Layer) : Step → Option CallResult
  | .proceed place result => (l.underWay place).map fun _ => result
  | _ => none

/-- The method and the status of the call that is completed in a step. -/
def completed (l : Layer) : Step → Option (String × String)
  | .proceed place result =>
    (l.underWay place).bind fun call =>
      result.status?.map fun status => (methodOf call.target, status)
  | _ => none

/-- The calls that are completed in some steps, each by its method and status. -/
def completions (l : Layer) : List Step → List (String × String)
  | [] => []
  | s :: rest => (l.completed s).toList ++ completions (l.step s).1 rest

/-! ### One step -/

theorem countCall_snd (meter : Option CallMeter) (target : String) (result : CallResult)
    (elapsed : Duration) : (countCall meter target result elapsed).2 = result := by
  unfold countCall
  split <;> rfl

/-- The caller gets what the inner service gives. -/
theorem step_snd (l : Layer) (s : Step) : (l.step s).2 = l.given s := by
  cases s with
  | proceed place result =>
    cases hcall : l.underWay place with
    | none => simp only [step, given, hcall, Option.map_none]
    | some call => simp only [step, given, hcall, Option.map_some, countCall_snd]
  | _ => rfl

/-- Two layers that differ in their meters only. -/
structure Alike (l l' : Layer) : Prop where
  now : l.now = l'.now
  calls : l.calls = l'.calls

theorem Alike.underWay {l l' : Layer} (h : Alike l l') (place : Nat) :
    l.underWay place = l'.underWay place := by
  unfold Layer.underWay
  rw [h.calls]

theorem Alike.step {l l' : Layer} (h : Alike l l') (s : Step) :
    Alike (l.step s).1 (l'.step s).1 := by
  cases s with
  | begin target => exact ⟨h.now, by simp only [Layer.step, h.now, h.calls]⟩
  | elapse time => exact ⟨congrArg (· + time) h.now, h.calls⟩
  | proceed place result =>
    cases hcall : l.underWay place with
    | none =>
      simp only [Layer.step, hcall, h.underWay place ▸ hcall]
      exact h
    | some call =>
      simp only [Layer.step, hcall, h.underWay place ▸ hcall]
      exact ⟨h.now, by simp only [h.calls]⟩
  | giveUp place => exact ⟨h.now, by simp only [Layer.step, h.calls]⟩
  | count method status => exact ⟨h.now, h.calls⟩

/-- Callers get the same, whatever the layer counts. -/
theorem Alike.run {l l' : Layer} (h : Alike l l') (steps : List Step) :
    (l.run steps).2 = (l'.run steps).2 := by
  induction steps generalizing l l' with
  | nil => rfl
  | cons s rest ih =>
    have hgiven : l.given s = l'.given s := by
      cases s with
      | proceed place result => simp only [given, h.underWay place]
      | _ => rfl
    show (l.step s).2 :: _ = (l'.step s).2 :: _
    rw [step_snd, step_snd, hgiven, ih (h.step s)]

/-- What a step does to the meter: it counts the call that is completed, if one is, and a step in
which none is completed only changes anything if it reads a counter. -/
structure Counts (l : Layer) (s : Step) (m m' : CallMeter) : Prop where
  grown : m.Grown m' (l.completed s)
  unchanged : l.completed s = none → (∀ method status, s ≠ .count method status) → m' = m

/-- A step counts, and leaves the samples in order and the counters balanced. -/
theorem step_counts {l : Layer} {m : CallMeter} (hmeter : l.meter = some m) (hm : m.Sound)
    (s : Step) : ∃ m', (l.step s).1.meter = some m' ∧ m'.Sound ∧ l.Counts s m m' := by
  cases s with
  | proceed place result =>
    cases hcall : l.underWay place with
    | none =>
      refine ⟨m, by simp only [step, hcall, hmeter], hm, ?_, fun _ _ => rfl⟩
      simp only [completed, hcall, Option.bind_none]
      exact .refl m
    | some call =>
      cases hstatus : result.status? with
      | none =>
        refine ⟨m, by simp only [step, hcall, hmeter, countCall, hstatus], hm, ?_, fun _ _ => rfl⟩
        simp only [completed, hcall, hstatus, Option.bind_some, Option.map_none]
        exact .refl m
      | some status =>
        have hcompleted : l.completed (.proceed place result) =
            some (methodOf call.target, status) := by
          simp only [completed, hcall, hstatus, Option.bind_some, Option.map_some]
        refine ⟨m.observe (methodOf call.target) status ⟨l.now - call.began⟩, ?_, hm.observe .., ?_⟩
        · simp only [step, hcall, hmeter, countCall, hstatus]
        · constructor
          · rw [hcompleted]
            exact hm.grown_observe ..
          · intro hnone
            rw [hcompleted] at hnone
            cases hnone
  | count method status =>
    refine ⟨(m.count method status).1, by simp only [step, hmeter, Option.map_some],
      hm.count method status, hm.grown_count method status, ?_⟩
    intro _ hother
    exact absurd rfl (hother method status)
  | _ => exact ⟨m, hmeter, hm, .refl m, fun _ _ => rfl⟩

/-- A call is over: its place has been given, and is empty. -/
def Over (l : Layer) (place : Nat) : Prop :=
  l.calls[place]? = some none

theorem Over.step {l : Layer} {place : Nat} (h : l.Over place) (s : Step) :
    (l.step s).1.Over place := by
  have hset : ∀ k : Nat, (l.calls.set k none)[place]? = some none := by
    intro k
    rw [List.getElem?_set]
    split_ifs with hk hlt
    · rfl
    · exact absurd (List.getElem?_eq_some_iff.1 h).1 (hk ▸ hlt)
    · exact h
  cases s with
  | begin target =>
    show (l.calls ++ [_])[place]? = some none
    rw [List.getElem?_append_left (List.getElem?_eq_some_iff.1 h).1]
    exact h
  | proceed k result =>
    cases hcall : l.underWay k with
    | none =>
      simp only [Layer.step, hcall]
      exact h
    | some call =>
      simp only [Layer.step, hcall, Over]
      cases result with
      | unfinished => exact h
      | _ => exact hset k
  | giveUp k => exact hset k
  | _ => exact h

theorem Over.run {l : Layer} {place : Nat} (h : l.Over place) (steps : List Step) :
    (l.run steps).1.Over place := by
  induction steps generalizing l with
  | nil => exact h
  | cons s rest ih => exact ih (h.step s)

/-- A completed call is over. -/
theorem over_of_completed {l : Layer} {place : Nat} {result : CallResult}
    (h : l.completed (.proceed place result) ≠ none) :
    (l.step (.proceed place result)).1.Over place := by
  cases hcall : l.underWay place with
  | none =>
    simp only [completed, hcall, Option.bind_none] at h
    exact absurd rfl h
  | some call =>
    have hplace : place < l.calls.length := by
      have hthere : l.calls[place]? = some (some call) := Option.join_eq_some_iff.1 hcall
      exact (List.getElem?_eq_some_iff.1 hthere).1
    simp only [step, hcall, Over]
    cases result with
    | unfinished => exact absurd (by simp only [completed, hcall]; rfl) h
    | _ => exact List.getElem?_set_self hplace

/-! ### A run -/

/-- Along a run the meter counts the calls that are completed. -/
theorem run_counts {l : Layer} {m : CallMeter} (hmeter : l.meter = some m) (hm : m.Sound)
    (steps : List Step) : ∃ m', (l.run steps).1.meter = some m' ∧ m'.Sound ∧
      ∀ method status, m'.requestCount method status =
        m.requestCount method status + (l.completions steps).count (method, status) := by
  induction steps generalizing l m with
  | nil => exact ⟨m, hmeter, hm, fun _ _ => rfl⟩
  | cons s rest ih =>
    obtain ⟨m₁, hmeter₁, hm₁, hcounts⟩ := step_counts hmeter hm s
    obtain ⟨m', hmeter', hm', hrest⟩ := ih hmeter₁ hm₁
    refine ⟨m', hmeter', hm', ?_⟩
    intro method status
    rw [hrest, hcounts.grown.requests, completions, List.count_append, Nat.add_assoc]
    congr 2
    cases l.completed s with
    | none => rfl
    | some call => simp [List.count_singleton]

/-- **Every call is counted once.**  Calls through a layer with a new meter begin, end and are given
up in any order.  The callers get what they get without a meter, which in each step is what the
inner service gives.  A step in which a call is completed adds one to one counter and one to the
durations of the method, and an inner error counts as unavailable; any other step leaves the numbers
as they are, and the whole meter unless it reads a counter.  A completed call is over, so that a
counter is the number of the calls completed with its method and status, and the counters of a
method always add up to the number of its durations. -/
theorem counted_once {namesp : String} {m : CallMeter} (hm : CallMeter.create namesp = .ok m)
    (steps : List Step) :
    ((start (some m)).run steps).2 = ((start none).run steps).2 ∧
      ∃ l n, ((start (some m)).run steps).1 = l ∧ l.meter = some n ∧
        (∀ s, (l.step s).2 = l.given s) ∧
        (∀ s, ∃ n', (l.step s).1.meter = some n' ∧ l.Counts s n n') ∧
        (∀ place call error, l.underWay place = some call →
          l.completed (.proceed place (.failed error)) =
            some (methodOf call.target, "UNAVAILABLE")) ∧
        (∀ place result, l.completed (.proceed place result) ≠ none → ∀ later,
          ((l.step (.proceed place result)).1.run later).1.underWay place = none) ∧
        (∀ method status, n.requestCount method status =
          ((start (some m)).completions steps).count (method, status)) ∧
        ∀ method, n.requestTotal method = n.durationCount method := by
  have halike : Alike (start (some m)) (start none) := ⟨rfl, rfl⟩
  obtain ⟨n, hmeter, hn, hcounted⟩ :=
    run_counts (l := start (some m)) rfl (Metrics.CallMeter.sound_of_create hm) steps
  refine ⟨halike.run steps, _, n, rfl, hmeter, step_snd _, ?_, ?_, ?_, ?_, hn.balanced⟩
  · intro s
    obtain ⟨n', hmeter', -, hcounts⟩ := step_counts hmeter hn s
    exact ⟨n', hmeter', hcounts⟩
  · intro place call error hcall
    simp only [completed, hcall, Option.bind_some]
    rfl
  · intro place result hcompleted later
    show Option.join _ = none
    rw [(over_of_completed hcompleted).run later]
    rfl
  · intro method status
    rw [hcounted, Metrics.CallMeter.requestCount_of_create hm, Nat.zero_add]

/-- Of three calls under way together one succeeds, one fails, and one is given up; a counter that
nothing has counted is read in between. -/
def cartSteps : List Step :=
  [.begin "http://host/shop.Cart/Add", .begin "http://host/shop.Cart/Add",
    .begin "http://host/shop.Cart/Add", .elapse 5, .proceed 1 .unfinished,
    .count "/shop.Cart/Add" "NOT_FOUND", .proceed 1 (.failed "gone"), .giveUp 2,
    .proceed 0 (.answered []), .proceed 2 (.answered [])]

/-- Two of the three calls are counted. -/
theorem counted_once_cart : CallMeter.create "shop" = .ok { namesp := "shop" } ∧
    ∃ n, ((start (some { namesp := "shop" })).run cartSteps).1.meter = some n ∧
      n.requestCount "/shop.Cart/Add" "OK" = 1 ∧
      n.requestCount "/shop.Cart/Add" "UNAVAILABLE" = 1 ∧
      n.requestCount "/shop.Cart/Add" "NOT_FOUND" = 0 ∧
      n.requestTotal "/shop.Cart/Add" = n.durationCount "/shop.Cart/Add" := by
  have hcreate : CallMeter.create "shop" = .ok { namesp := "shop" } := by
    decide
  obtain ⟨-, _, n, rfl, hmeter, -, -, -, -, hcounters, hbalanced⟩ := counted_once hcreate cartSteps
  refine ⟨hcreate, n, hmeter, ?_, ?_, ?_, hbalanced _⟩
  · rw [hcounters]
    decide
  · rw [hcounters]
    decide
  · rw [hcounters]
    decide

end Layer

end ServiceHost.Rpc
