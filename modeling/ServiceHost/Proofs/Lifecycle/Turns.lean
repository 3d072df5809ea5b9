import Mathlib.Algebra.GroupWithZero.Nat
import Mathlib.Data.List.Chain
import ServiceHost.Proofs.Lifecycle.Passage
/-!
How long the calls of a row take.

The processes of a row are called one after the other without a pause: the first at the moment at
which the row begins, every other at the moment at which the one before it came back.  For the times
`cs` of the calls and `ts` of the returns of a row that begins at `start` this is the equation
`cs = start :: ts`, but for the last call, which may be the last entry or not yet there.  A call
therefore begins at `start` plus the durations of the calls before it (`time_eq_add_sum`).
-/

namespace ServiceHost

variable {W : Type}

/-! ### Times of returns and durations -/

/-- When a call of a phase came back, if the entry tells that. -/
def Entry.returnedAt? (phase : Phase) (x : Entry) : Option Nat :=
  (x.returned? phase).map fun _ => x.time

namespace Engine

/-- When the calls of a phase came back, in order. -/
def returnTimes (phase : Phase) (e : Engine W) : List Nat :=
  e.entries.filterMap (Entry.returnedAt? phase)

/-- How long the calls of a phase took, in order, as far as they have come back. -/
def durations (phase : Phase) (e : Engine W) : List Nat :=
  List.zipWith (fun (c : Call) t => t - c.time) (e.calls phase) (e.returnTimes phase)

/-- Where calls follow each other without a pause, each begins at the start plus the durations of
those before it. -/
theorem time_eq_add_sum {cs : List Call} {start : Nat} {ts : List Nat} {k : Nat} {c : Call}
    (hturns : cs.map Call.time <+: start :: ts) (hsorted : (start :: ts).IsChain (· ≤ ·))
    (hc : cs[k]? = some c) :
    c.time = start + ((List.zipWith (fun (c : Call) t => t - c.time) cs ts).take k).sum := by
  induction k generalizing cs start ts with
  | zero =>
    obtain ⟨cs', rfl⟩ : ∃ cs', cs = c :: cs' := by
      cases cs with
      | nil => cases hc
      | cons d cs' => exact ⟨cs', by rw [Option.some.inj hc]⟩
    rw [List.map_cons, List.cons_prefix_cons] at hturns
    simp [hturns.1]
  | succ k ih =>
    cases cs with
    | nil => cases hc
    | cons d cs' =>
      rw [List.map_cons, List.cons_prefix_cons] at hturns
      rw [List.getElem?_cons_succ] at hc
      cases ts with
      | nil =>
        -- a call after the first needs a return before it
        rw [List.prefix_nil, List.map_eq_nil_iff] at hturns
        rw [hturns.2] at hc
        cases hc
      | cons t ts' =>
        rw [List.isChain_cons_cons] at hsorted
        rw [ih hturns.2 hsorted.2 hc, List.zipWith_cons_cons, List.take_succ_cons, List.sum_cons,
          hturns.1]
        omega

/-! ### Calls and returns of a row -/

theorem Course.calls_eq {e e' : Engine W} (h : Course e e') {phase : Phase}
    (hphase : phase ≠ .run) : e'.calls phase = e.calls phase :=
  h.adds.filterMap_entries _ fun _ hx => hx.2.ofEntry?_eq_none hphase hphase

theorem Course.returnTimes_eq {e e' : Engine W} (h : Course e e') {phase : Phase}
    (hphase : phase ≠ .run) : e'.returnTimes phase = e.returnTimes phase := by
  refine h.adds.filterMap_entries _ fun x hx => ?_
  rw [Entry.returnedAt?, hx.2.returned?_eq_none hphase hphase]
  rfl

variable {sch : Schedule W} {phase : Phase} {s : Scope} {code : Component W → Routine W}
  {good : Outcome → Prop} {row : List (Nat × Component W)} {e e' : Engine W} {os : List Outcome}
  {index : Nat}

/-- That a call was made is on record. -/
theorem calls_call (hphase : phase ≠ .run) {r : Routine W} {result : Returned}
    (h : e.call sch phase index s r = (e', result)) :
    ∃ c : Call, c.index = index ∧ c.time = e.now ∧ e'.calls phase = e.calls phase ++ [c] := by
  obtain ⟨m, e₁, hcourse, hcall⟩ := call_course sch phase index s r e
  have hcalls : e₁.calls phase = e.calls phase ++ [⟨index, e.now, e.stage, m⟩] := by
    rw [hcourse.calls_eq hphase, calls_record]
    simp [Call.ofEntry?]
  refine ⟨⟨index, e.now, e.stage, m⟩, rfl, rfl, ?_⟩
  rcases hcall with hnever | ⟨o, heq⟩
  · cases h.symm.trans hnever
    exact hcalls
  · cases h.symm.trans heq
    exact (filterMap_entries_of_none _ rfl rfl).trans hcalls

/-- When a call came back is on record. -/
theorem returnTimes_call (hphase : phase ≠ .run) {r : Routine W} {o : Outcome}
    (h : e.call sch phase index s r = (e', .outcome o)) :
    e'.returnTimes phase = e.returnTimes phase ++ [e'.now] := by
  obtain ⟨m, e₁, hcourse, hnever | ⟨o', heq⟩⟩ := call_course sch phase index s r e
  · cases h.symm.trans hnever
  · cases h.symm.trans heq
    have htimes : e₁.returnTimes phase = e.returnTimes phase :=
      (hcourse.returnTimes_eq hphase).trans (filterMap_entries_of_none _ rfl rfl)
    rw [returnTimes, filterMap_entries_record, ← returnTimes, htimes]
    simp [Entry.returnedAt?, Entry.returned?]

theorem returnTimes_call_never (hphase : phase ≠ .run) {r : Routine W}
    (h : e.call sch phase index s r = (e', .never)) :
    e'.returnTimes phase = e.returnTimes phase := by
  obtain ⟨m, e₁, hcourse, hnever | ⟨o', heq⟩⟩ := call_course sch phase index s r e
  · cases h.symm.trans hnever
    exact (hcourse.returnTimes_eq hphase).trans (filterMap_entries_of_none _ rfl rfl)
  · cases h.symm.trans heq

/-- Of a row of calls each begins when the one before it has come back. -/
theorem Visits.turns (hphase : phase ≠ .run) (h : Visits sch phase s code row e os e') :
    ∃ (cs : List Call) (ts : List Nat), e'.calls phase = e.calls phase ++ cs ∧
      e'.returnTimes phase = e.returnTimes phase ++ ts ∧
      cs.map Call.index = row.map Prod.fst ∧
      cs.map Call.time ++ [e'.now] = e.now :: ts ∧ (e.now :: ts).IsChain (· ≤ ·) := by
  induction h with
  | nil => exact ⟨[], [], by simp, by simp, rfl, rfl, .singleton _⟩
  | cons hfirst _ ih =>
    obtain ⟨c, hindex, htime, hcalls⟩ := calls_call hphase hfirst
    obtain ⟨cs, ts, hcalls', htimes, hindices, hturns, hsorted⟩ := ih
    refine ⟨c :: cs, _ :: ts, ?_, ?_, ?_, ?_, .cons_cons (adds_call hfirst).now_le hsorted⟩
    · rw [hcalls', hcalls, List.append_assoc]
      rfl
    · rw [htimes, returnTimes_call hphase hfirst, List.append_assoc]
      rfl
    · rw [List.map_cons, List.map_cons, hindex, hindices]
    · rw [List.map_cons, List.cons_append, hturns, htime]

/-- Of a row that stops each call begins when the one before it has come back. -/
theorem Breaks.turns (hphase : phase ≠ .run) {r : Returned}
    (h : Breaks sch phase s code good row e index r e') :
    ∃ (cs : List Call) (ts : List Nat), e'.calls phase = e.calls phase ++ cs ∧
      e'.returnTimes phase = e.returnTimes phase ++ ts ∧
      cs.map Call.index <+: row.map Prod.fst ∧
      cs.map Call.time <+: e.now :: ts ∧ (e.now :: ts).IsChain (· ≤ ·) := by
  obtain @⟨_, p, before, after, _, e₁, _, os, _, hvisits, -, hcall, -⟩ := h
  obtain ⟨cs, ts, hcalls, htimes, hindices, hturns, hsorted⟩ := hvisits.turns hphase
  obtain ⟨c, hindex, htime, hcalls'⟩ := calls_call hphase hcall
  -- the last call may have come back, but not before it was made
  obtain ⟨late, hlate, hsorted'⟩ : ∃ late, e'.returnTimes phase = e₁.returnTimes phase ++ late ∧
      (e.now :: (ts ++ late)).IsChain (· ≤ ·) := by
    cases r with
    | never =>
      refine ⟨[], ?_, by rwa [List.append_nil]⟩
      rw [returnTimes_call_never hphase hcall, List.append_nil]
    | outcome o =>
      refine ⟨[e'.now], returnTimes_call hphase hcall, ?_⟩
      rw [← List.cons_append, List.isChain_append]
      refine ⟨hsorted, .singleton _, fun x hx y hy => ?_⟩
      rw [← hturns, List.getLast?_concat] at hx
      cases hx
      cases hy
      exact (adds_call hcall).now_le
  refine ⟨cs ++ [c], ts ++ late, ?_, ?_, ?_, ?_, hsorted'⟩
  · rw [hcalls', hcalls, List.append_assoc]
  · rw [hlate, htimes, List.append_assoc]
  · refine ⟨after.map Prod.fst, ?_⟩
    simp [hindices, hindex]
  · rw [List.map_append, List.map_singleton, htime, hturns]
    exact List.prefix_append (e.now :: ts) late

end Engine

/-! ### The shutdowns of a run -/

namespace Supervisor

open Engine

variable {sch : Schedule W} {sup : Supervisor W} {outer : Scope} {e e₁ e₂ : Engine W}

namespace Stops

/-- A view that has no eye for what comes before the last stage has seen nothing when the processes
are going to be shut down. -/
theorem filterMap_closing (h : Stops sch sup outer e e₁ e₂) (he : e.Fresh) {β : Type}
    (f : Entry → Option β) (haside : ∀ x, x.event.Within .prepare → f x = none)
    (hpublished : ∀ t stage s, f ⟨t, stage, .published s⟩ = none)
    (hannounced : ∀ t stage, f ⟨t, stage, .announced⟩ = none)
    (hreceived : ∀ t stage r, f ⟨t, stage, .received r⟩ = none) :
    (closing (takeCause sch outer e₂).1).entries.filterMap f = [] := by
  refine (filterMap_entries_of_none f rfl (hpublished ..)).trans ?_
  rcases takeCause_cases sch outer e₂ with ⟨heq, -⟩ | ⟨r, rest, -, -, heq⟩
  · rw [heq]
    exact h.filterMap_eq_nil he f haside hpublished hannounced
  · rw [heq]
    exact (filterMap_entries_of_none f rfl (hreceived ..)).trans
      (h.filterMap_eq_nil he f haside hpublished hannounced)

theorem calls_closing (h : Stops sch sup outer e e₁ e₂) (he : e.Fresh) :
    (closing (takeCause sch outer e₂).1).calls .close = [] :=
  h.filterMap_closing he _ (fun _ hx => hx.ofEntry?_eq_none (by simp) (by simp))
    (fun _ _ _ => rfl) (fun _ _ => rfl) (fun _ _ _ => rfl)

theorem returnTimes_closing (h : Stops sch sup outer e e₁ e₂) (he : e.Fresh) :
    (closing (takeCause sch outer e₂).1).returnTimes .close = [] := by
  refine h.filterMap_closing he _ (fun x hx => ?_) (fun _ _ _ => rfl) (fun _ _ => rfl)
    (fun _ _ _ => rfl)
  rw [Entry.returnedAt?, hx.returned?_eq_none (by simp) (by simp)]
  rfl

end Stops

/-- The drain of a run leaves the record of its shutdowns. -/
theorem filterMap_drained {β : Type} (f : Entry → Option β)
    (haside : ∀ x, x.event.InDrain → f x = none)
    (hrunCancelled : ∀ t stage, f ⟨t, stage, .runCancelled⟩ = none)
    (hpublished : ∀ t stage s, f ⟨t, stage, .published s⟩ = none) (sch : Schedule W)
    (deadline : Nat) (token : Token) (e : Engine W) :
    List.filterMap f
        ((drain sch deadline ((e.cancel token).record .runCancelled)).publish .stopped).entries =
      e.entries.filterMap f := by
  have hcancelled : (e.cancel token).entries.filterMap f = e.entries.filterMap f :=
    filterMap_entries_of_none f rfl (haside _ trivial)
  have hrecorded : ((e.cancel token).record .runCancelled).entries.filterMap f =
      e.entries.filterMap f :=
    (filterMap_entries_of_none f rfl (hrunCancelled ..)).trans hcancelled
  have hdrain := (adds_drain sch deadline ((e.cancel token).record .runCancelled)).filterMap_entries
    f fun x hx => haside x hx.2
  exact (filterMap_entries_of_none f rfl (hpublished ..)).trans (hdrain.trans hrecorded)

theorem calls_drained (sch : Schedule W) (deadline : Nat) (token : Token) (e : Engine W) :
    ((drain sch deadline ((e.cancel token).record .runCancelled)).publish .stopped).calls .close =
      e.calls .close :=
  filterMap_drained _ (fun _ hx => hx.ofEntry?_eq_none) (fun _ _ => rfl) (fun _ _ _ => rfl) ..

theorem returnTimes_drained (sch : Schedule W) (deadline : Nat) (token : Token) (e : Engine W) :
    ((drain sch deadline ((e.cancel token).record .runCancelled)).publish .stopped).returnTimes
        .close = e.returnTimes .close := by
  refine filterMap_drained _ (fun x hx => ?_) (fun _ _ => rfl) (fun _ _ _ => rfl) ..
  rw [Entry.returnedAt?, hx.returned?_eq_none]
  rfl

/-- A run that comes to its last stage shuts its processes down in reverse order and without a
pause, the first of them at once. -/
theorem Stops.turns (h : Stops sch sup outer e e₁ e₂) (he : e.Fresh) :
    ((sup.run sch outer e).1.calls .close).map Call.index <+:
        (List.range sup.processes.length).reverse ∧
      ((sup.run sch outer e).1.calls .close).map Call.time <+:
        e₂.now :: (sup.run sch outer e).1.returnTimes .close ∧
      (e₂.now :: (sup.run sch outer e).1.returnTimes .close).IsChain (· ≤ ·) := by
  have hcalls := h.calls_closing he
  have htimes := h.returnTimes_closing he
  have hnow : (closing (takeCause sch outer e₂).1).now = e₂.now := now_takeCause sch outer e₂
  have hends := h.ends
  rw [← sup.map_fst_reverse_numbered]
  generalize sup.run sch outer e = r at hends ⊢
  cases hends with
  | unfit =>
    have hcalls : ((takeCause sch outer e₂).1.publish .stopping).calls .close = [] := hcalls
    have htimes : ((takeCause sch outer e₂).1.publish .stopping).returnTimes .close = [] := htimes
    rw [hcalls, htimes]
    exact ⟨List.nil_prefix, List.nil_prefix, .singleton _⟩
  | hangs _ hbreaks | panics _ hbreaks =>
    obtain ⟨cs, ts, hcalls', htimes', hindices, hturns, hsorted⟩ := hbreaks.turns (by simp)
    rw [hcalls', hcalls, htimes', htimes, ← hnow]
    exact ⟨hindices, hturns, hsorted⟩
  | @closed os e₃ _ hvisits =>
    obtain ⟨cs, ts, hcalls', htimes', hindices, hturns, hsorted⟩ := hvisits.turns (by simp)
    rw [calls_drained, returnTimes_drained, hcalls', hcalls, htimes', htimes, ← hnow]
    refine ⟨hindices ▸ List.prefix_refl _, ?_, hsorted⟩
    rw [List.nil_append, List.nil_append, ← hturns]
    exact List.prefix_append ..

end Supervisor

end ServiceHost
