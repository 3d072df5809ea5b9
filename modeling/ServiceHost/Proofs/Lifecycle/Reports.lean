import ServiceHost.Proofs.Lifecycle.Passage
/-!
What the state of an engine has to do with its record.

The mailbox holds the reports of the runs that have failed, all of them and in order, since there is
room for one of each task (`Engine.Collects`).  A scope is cancelled if and only if it was cancelled
before or the record tells of it (`Engine.Tells`), so that it is done now if and only if it was done
by now according to the record (`Tells.isDone_iff`).

Both hold whatever happens.  They carry what a supervisor sees of failures and of its outer scope
over to statements that mention the record alone.
-/

namespace ServiceHost.Engine

variable {W : Type}

/-! ### The mailbox and the failures -/

/-- How many tasks have not ended. -/
def live (e : Engine W) : Nat :=
  e.tasks.countP (·.outcome.isNone)

/-- The mailbox holds the reports of all runs that have failed, in order, and has room for one more
of each task that has not ended. -/
structure Collects (e : Engine W) : Prop where
  reports : e.mailbox.reports = e.failures.map Prod.snd
  room : e.failures.length + e.live ≤ e.mailbox.room

/-- Replacing a task that has not ended. -/
theorem live_of_set {e e' : Engine W} {k : Nat} {t t' : Task W} (here : e.tasks[k]? = some t)
    (hlive : t.outcome = none) (htasks : e'.tasks = e.tasks.set k t') :
    e'.live + 1 = e.live + if t'.outcome.isNone then 1 else 0 := by
  obtain ⟨hk, rfl⟩ := List.getElem?_eq_some_iff.1 here
  have hle := List.boole_getElem_le_countP (p := fun t : Task W => t.outcome.isNone) hk
  unfold live
  rw [htasks, List.countP_set hk]
  simp only [hlive, Option.isNone_none, if_true] at hle ⊢
  omega

/-- A task that goes on has not ended. -/
theorem live_of_set_none {e e' : Engine W} {k : Nat} {t t' : Task W} (here : e.tasks[k]? = some t)
    (hlive : t.outcome = none) (htasks : e'.tasks = e.tasks.set k t') (hlive' : t'.outcome = none) :
    e'.live ≤ e.live := by
  have hset := live_of_set here hlive htasks
  rw [hlive'] at hset
  exact Nat.le_of_eq (Nat.succ.inj hset)

/-- A task that ends is one task less that has not ended. -/
theorem live_endTask {e : Engine W} {k : Nat} {t : Task W} (here : e.tasks[k]? = some t)
    (hlive : t.outcome = none) (o : Outcome) : (e.endTask k t o).live + 1 = e.live := by
  have htasks : (e.endTask k t o).tasks = e.tasks.set k { t with outcome := some o } := by
    rw [endTask_eq]
    rfl
  exact live_of_set here hlive htasks

theorem mailbox_endTask (e : Engine W) (k : Nat) (t : Task W) (o : Outcome) :
    (e.endTask k t o).mailbox =
      (o.fault?.map (Report.mk t.index)).elim e.mailbox e.mailbox.post := by
  rw [endTask_eq]

theorem failures_endTask (e : Engine W) (k : Nat) (t : Task W) (o : Outcome) :
    (e.endTask k t o).failures =
      e.failures ++ (o.fault?.map fun source => (e.now, ⟨t.index, source⟩)).toList := by
  rw [endTask_eq]
  exact filterMap_entries_cons (x := ⟨e.now, e.stage, .returned .run t.index o⟩) _ rfl

/-- Where there is room for one report of each task that has not ended, no report is refused:
whatever happens, the reports of the runs that fail are put behind those in the mailbox, and there
is room for the others again. -/
theorem Happens.posts {e e' : Engine W} (h : Happens e e')
    (hroom : e.mailbox.reports.length + e.live ≤ e.mailbox.room) :
    ∃ new, e'.failures = e.failures ++ new ∧
      e'.mailbox.reports = e.mailbox.reports ++ new.map Prod.snd ∧
      e'.mailbox.reports.length + e'.live ≤ e'.mailbox.room := by
  -- what neither changes the mailbox nor makes a run fail
  have hsame (hmailbox : e'.mailbox = e.mailbox) (hfailures : e'.failures = e.failures)
      (hlive : e'.live ≤ e.live) : ∃ new, e'.failures = e.failures ++ new ∧
        e'.mailbox.reports = e.mailbox.reports ++ new.map Prod.snd ∧
        e'.mailbox.reports.length + e'.live ≤ e'.mailbox.room := by
    refine ⟨[], by simp [hfailures], by simp [hmailbox], ?_⟩
    rw [hmailbox]
    omega
  cases h with
  | clock | change | leave => exact hsame rfl rfl (Nat.le_refl _)
  | arrive | cancel => exact hsame rfl (filterMap_entries_of_none _ rfl rfl) (Nat.le_refl _)
  | start here live =>
    exact hsame rfl (filterMap_entries_of_none _ rfl rfl) (live_of_set_none here live rfl live)
  | goOn here live => exact hsame rfl rfl (live_of_set_none here live rfl live)
  | @finish k t here live o =>
    have hlive := live_endTask here live o
    have hmailbox := mailbox_endTask e k t o
    have hfailures := failures_endTask e k t o
    cases ho : o.fault? with
    | none =>
      rw [ho] at hmailbox hfailures
      exact hsame hmailbox (hfailures.trans (List.append_nil _)) (by omega)
    | some source =>
      rw [ho] at hmailbox hfailures
      -- there is room, for the task that ends now was counted among those that have not ended
      have hpost : (e.endTask k t o).mailbox =
          { e.mailbox with reports := e.mailbox.reports ++ [⟨t.index, source⟩] } :=
        hmailbox.trans (if_pos (by omega))
      refine ⟨[(e.now, ⟨t.index, source⟩)], hfailures, by rw [hpost]; rfl, ?_⟩
      rw [hpost, List.length_append, List.length_singleton]
      show _ ≤ e.mailbox.room
      omega

namespace Collects

/-- What neither changes the mailbox nor makes a run fail. -/
theorem of_eq {e e' : Engine W} (h : e.Collects) (hmailbox : e'.mailbox = e.mailbox)
    (hfailures : e'.failures = e.failures) (hlive : e'.live ≤ e.live) : e'.Collects := by
  refine ⟨?_, ?_⟩
  · rw [hmailbox, hfailures, h.reports]
  · rw [hmailbox, hfailures]
    exact Nat.le_trans (Nat.add_le_add_left hlive _) h.room

/-- The mailbox is as it has to be whatever happens. -/
theorem happens {e e' : Engine W} (h : e.Collects) (hstep : Happens e e') : e'.Collects := by
  have hlength : e.mailbox.reports.length = e.failures.length := by
    rw [h.reports, List.length_map]
  obtain ⟨new, hfailures, hreports, hroom⟩ := hstep.posts (hlength ▸ h.room)
  have hreports' : e'.mailbox.reports = e'.failures.map Prod.snd := by
    rw [hreports, hfailures, h.reports, List.map_append]
  refine ⟨hreports', ?_⟩
  rw [hreports', List.length_map] at hroom
  exact hroom

end Collects

/-! ### Tokens and cancellations -/

/-- A scope is cancelled if and only if it was cancelled in `start` or the record tells of it. -/
structure Tells (start : Engine W) (s : Scope) (e : Engine W) : Prop where
  isCancelled_iff : s.isCancelled e.tokens = true ↔
    s.isCancelled start.tokens = true ∨ ∃ c ∈ e.cancellations, c.2 <:+ s.token

theorem cancellations_cancel (e : Engine W) (token : Token) :
    (e.cancel token).cancellations = e.cancellations ++ [(e.now, token)] :=
  cancellations_record { e with tokens := e.tokens.cancel token } _

namespace Tells

variable {start e e' : Engine W} {s : Scope}

theorem of_eq (h : Tells start s e) (htokens : s.isCancelled e'.tokens = s.isCancelled e.tokens)
    (hcancellations : e'.cancellations = e.cancellations) : Tells start s e' := by
  refine ⟨?_⟩
  rw [htokens, hcancellations]
  exact h.isCancelled_iff

theorem cancel (h : Tells start s e) (token : Token) : Tells start s (e.cancel token) := by
  have htokens : s.isCancelled (e.cancel token).tokens =
      (token.isSuffixOf s.token || s.isCancelled e.tokens) := rfl
  refine ⟨?_⟩
  rw [htokens, cancellations_cancel, Bool.or_eq_true, List.isSuffixOf_iff_suffix,
    h.isCancelled_iff]
  simp only [List.mem_append, List.mem_singleton]
  constructor
  · rintro (hsuffix | hstart | ⟨c, hc, hsuffix⟩)
    · exact .inr ⟨(e.now, token), .inr rfl, hsuffix⟩
    · exact .inl hstart
    · exact .inr ⟨c, .inl hc, hsuffix⟩
  · rintro (hstart | ⟨c, hc | rfl, hsuffix⟩)
    · exact .inr (.inl hstart)
    · exact .inr (.inr ⟨c, hc, hsuffix⟩)
    · exact .inl hsuffix

/-- The record tells of the cancellations of a scope whatever happens. -/
theorem happens (h : Tells start s e) (hstep : Happens e e') : Tells start s e' := by
  cases hstep with
  | clock | change | leave | goOn => exact h.of_eq rfl rfl
  | start => exact h.of_eq rfl (filterMap_entries_of_none _ rfl rfl)
  | cancel token => exact h.cancel token
  | @arrive k time token planned =>
    have houtside : Tells start s { e with outside := e.outside.eraseIdx k } := h.of_eq rfl rfl
    exact houtside.cancel token
  | finish =>
    rw [endTask_eq]
    exact h.of_eq rfl (filterMap_entries_of_none _ rfl rfl)

theorem publish (h : Tells start s e) (stage : Stage) : Tells start s (e.publish stage) :=
  h.of_eq rfl (cancellations_publish ..)

/-- The record tells of the cancellations of a scope while processes are prepared. -/
theorem kept (phase : Phase) (start : Engine W) (s : Scope) : Kept phase (Tells start s) where
  happens _ _ hstep h := h.happens hstep
  called _ _ _ h := h.of_eq rfl (filterMap_entries_of_none _ rfl rfl)
  returned _ _ _ h := h.of_eq rfl (filterMap_entries_of_none _ rfl rfl)

/-- A scope is done now if and only if it was done by now according to the record. -/
theorem isDone_iff (h : Tells start s e) (hordered : e.Ordered) :
    s.isDone e.tokens e.now = true ↔ DoneBy start e s e.now := by
  unfold Scope.isDone DoneBy
  rw [Bool.or_eq_true, h.isCancelled_iff, or_assoc]
  refine or_congr_right (or_congr ?_ ?_)
  · constructor
    · rintro ⟨c, hc, hsuffix⟩
      exact ⟨c, hc, hordered.cancellations_le hc, hsuffix⟩
    · rintro ⟨c, hc, -, hsuffix⟩
      exact ⟨c, hc, hsuffix⟩
  · cases s.deadline <;> simp

end Tells

end ServiceHost.Engine
