import ServiceHost.Proofs.Lifecycle.Lockstep
/-!
The usual schedule with one more task that has nothing to do.

The usual schedule prefers who is acting, then the caller if the clock jumps for it, then who has
waited longest.  Of a row with one name more, the longest waiting is that one or the same as before
(`Schedule.Chosen.foldl`).  While the additional task takes turns of its own, nobody else could go
on acting and no jump was for the caller (`Engine.Turn`), so that what the other two rules prefer is
the same with and without it.

Main result: `Schedule.alike_usual`.
-/

namespace ServiceHost

variable {W : Type}

/-! ### The longest waiting -/

namespace Schedule

open Engine

variable {k : Nat} {s : Scope} {e e' : Engine W}

/-- Of the one chosen so far, if there is one, and another one, who has waited longer. -/
def longerOf (e : Engine W) : Option Who → Who → Option Who
  | none, b => some b
  | some a, b => some (longerWaiting e a b)

theorem foldl_longerOf_some (e : Engine W) (l : List Who) (a : Who) :
    l.foldl (longerOf e) (some a) = some (l.foldl (longerWaiting e) a) := by
  induction l generalizing a with
  | nil => rfl
  | cons b l ih => exact ih (longerWaiting e a b)

/-- The longest waiting of a row is in it. -/
theorem mem_of_foldl_longerOf {l : List Who} {o : Option Who} {a : Who}
    (h : l.foldl (longerOf e) o = some a) : a ∈ l ∨ o = some a := by
  induction l generalizing o with
  | nil => exact .inr h
  | cons b l ih =>
    rcases ih h with hmem | hchosen
    · exact .inl (List.mem_cons_of_mem _ hmem)
    · cases o with
      | none => exact .inl (Option.some.inj hchosen ▸ List.mem_cons_self)
      | some c =>
        have hlonger : longerWaiting e c b = a := Option.some.inj hchosen
        unfold longerWaiting at hlonger
        split at hlonger
        · exact .inl (hlonger ▸ List.mem_cons_self)
        · exact .inr (congrArg some hlonger)

/-- Moving places does not change since when anyone has waited. -/
theorem waitingSince_shift (h : Crew k s e.tasks e'.tasks) (who : Who) :
    waitingSince e' (who.shift k) = waitingSince e who := by
  cases who with
  | task i =>
    simp only [waitingSince, Who.shift, h.getElem?_shift, Option.map_map]
    rfl
  | caller | outside => rfl

/-- The choice among some, and the choice when the additional task may be one of them: it is the
same or the additional task, which then has waited as long as the other at least. -/
inductive Chosen (k : Nat) (e e' : Engine W) : Option Who → Option Who → Prop
  | same (o : Option Who) : Chosen k e e' o (o.map (Who.shift k))
  | ahead {o : Option Who}
      (longer : ∀ a, o = some a → waitingSince e' (.task k) ≤ waitingSince e a) :
      Chosen k e e' o (some (.task k))

/-- One more is compared on both sides. -/
theorem Chosen.both (hcrew : Crew k s e.tasks e'.tasks) {o o' : Option Who}
    (h : Chosen k e e' o o') (b : Who) :
    Chosen k e e' (longerOf e o b) (longerOf e' o' (b.shift k)) := by
  have hb := waitingSince_shift hcrew b
  cases h with
  | same =>
    cases o with
    | none => exact .same (some b)
    | some a =>
      have hlonger : longerWaiting e' (a.shift k) (b.shift k) = (longerWaiting e a b).shift k := by
        unfold longerWaiting
        rw [hb, waitingSince_shift hcrew]
        split <;> rfl
      show Chosen k e e' (some (longerWaiting e a b)) (some (longerWaiting e' _ _))
      rw [hlonger]
      exact .same (some (longerWaiting e a b))
  | ahead longer =>
    show Chosen k e e' _ (some (longerWaiting e' (.task k) (b.shift k)))
    by_cases hlt : waitingSince e b < waitingSince e' (.task k)
    · -- then `b` has waited longer than the one chosen so far as well
      have hahead : longerWaiting e' (.task k) (b.shift k) = b.shift k := if_pos (by rwa [hb])
      have hbase : longerOf e o b = some b := by
        cases o with
        | none => rfl
        | some a => exact congrArg some (if_pos (Nat.lt_of_lt_of_le hlt (longer a rfl)))
      rw [hahead, hbase]
      exact .same (some b)
    · have hahead : longerWaiting e' (.task k) (b.shift k) = .task k := if_neg (by rwa [hb])
      rw [hahead]
      refine .ahead fun a ha => ?_
      cases o with
      | none =>
        cases ha
        exact Nat.le_of_not_lt hlt
      | some c =>
        have hlonger : longerWaiting e c b = a := Option.some.inj ha
        unfold longerWaiting at hlonger
        split at hlonger
        · exact hlonger ▸ Nat.le_of_not_lt hlt
        · exact longer a (congrArg some hlonger)

/-- The additional task is compared. -/
theorem Chosen.more (hcrew : Crew k s e.tasks e'.tasks) {o o' : Option Who}
    (h : Chosen k e e' o o') : Chosen k e e' o (longerOf e' o' (.task k)) := by
  cases h with
  | same =>
    cases o with
    | none => exact .ahead fun a ha => by cases ha
    | some a =>
      have ha := waitingSince_shift hcrew a
      show Chosen k e e' (some a) (some (longerWaiting e' (a.shift k) (.task k)))
      unfold longerWaiting
      split
      next hlt =>
        refine .ahead fun b hb => ?_
        rw [← Option.some.inj hb, ← ha]
        exact Nat.le_of_lt hlt
      next => exact .same (some a)
  | ahead longer =>
    have hitself : longerWaiting e' (.task k) (.task k) = .task k := if_neg (Nat.lt_irrefl _)
    show Chosen k e e' o (some (longerWaiting e' _ _))
    rw [hitself]
    exact .ahead longer

/-- The longest waiting of a row in which the additional task may be. -/
theorem Chosen.foldl (hcrew : Crew k s e.tasks e'.tasks) {l l' : List Who}
    (hrow : Widened (Who.shift k) (· = .task k) l l') {o o' : Option Who}
    (h : Chosen k e e' o o') :
    Chosen k e e' (l.foldl (longerOf e) o) (l'.foldl (longerOf e') o') := by
  induction hrow generalizing o o' with
  | nil => exact h
  | both b _ ih => exact ih (h.both hcrew b)
  | more kind _ ih =>
    subst kind
    exact ih (h.more hcrew)

/-! ### The usual pick -/

theorem usual_pick (e : Engine W) (time : Nat) (able : List Who) :
    (usual : Schedule W).pick e time able =
      if e.active ∈ able ∧ time = e.now then e.active
      else if .caller ∈ able ∧ e.now < time then .caller
      else ((able.filter (· != .caller)).foldl (longerOf e) none).getD .caller := by
  unfold usual
  dsimp only
  cases able.filter (· != .caller) with
  | nil => rfl
  | cons first rest =>
    have hlongest : (first :: rest).foldl (longerOf e) none =
        some (rest.foldl (longerWaiting e) first) := foldl_longerOf_some e rest first
    rw [hlongest]
    rfl

/-- Of those who can act, the usual schedule picks one. -/
theorem usual_pick_mem (e : Engine W) (time : Nat) {able : List Who} (h : able ≠ []) :
    (usual : Schedule W).pick e time able ∈ able := by
  rw [usual_pick]
  split
  next hactive => exact hactive.1
  next =>
    split
    next hjump => exact hjump.1
    next =>
      cases hlongest : (able.filter (· != .caller)).foldl (longerOf e) none with
      | some a =>
        have hmem := (mem_of_foldl_longerOf hlongest).resolve_right (by simp)
        exact (List.mem_filter.1 hmem).1
      | none =>
        -- nobody but the caller is there
        obtain ⟨a, rest, rfl⟩ := List.exists_cons_of_ne_nil h
        by_cases ha : a = .caller
        · rw [ha]
          exact List.mem_cons_self
        · rw [List.filter_cons_of_pos (by simpa using ha), List.foldl_cons] at hlongest
          cases (foldl_longerOf_some ..).symm.trans hlongest

end Schedule

namespace Engine

open Schedule (usual)

variable {k : Nat} {s : Scope} {ready : Engine W → Option Nat} {e e' : Engine W} {time : Nat}
  {who : Who}

/-- Whom the usual schedule lets act. -/
theorem choose_usual (e : Engine W) (time : Nat) {able : List Who} (h : able ≠ []) :
    e.choose usual time able = usual.pick e time able :=
  if_pos (Schedule.usual_pick_mem e time h)

theorem eq_pick_of_next (h : e.next usual ready = some (time, who)) :
    who = usual.pick e time (whoAt (e.able ready) time) := by
  obtain ⟨x, hearliest, heq⟩ := Option.map_eq_some_iff.1 h
  obtain ⟨rfl, rfl⟩ := Prod.mk.inj heq
  rw [choose_usual e x.1 (earliest_eq_some hearliest).2.1, whos_eq_of_earliest hearliest]

/-- Who is acting goes on, if that is possible. -/
theorem eq_active_of_next (h : e.next usual ready = some (time, who)) (htime : time = e.now)
    (hactive : (e.active, e.now) ∈ e.able ready) : who = e.active := by
  subst htime
  rw [eq_pick_of_next h, Schedule.usual_pick, if_pos ⟨mem_whoAt.2 hactive, rfl⟩]

/-- The clock jumps for the caller, if that is possible. -/
theorem eq_caller_of_next (h : e.next usual ready = some (time, who)) (htime : e.now < time)
    (hcaller : ready e = some time) : who = .caller := by
  have hmem : .caller ∈ whoAt (e.able ready) time := mem_whoAt.2 (caller_mem_able.2 hcaller)
  rw [eq_pick_of_next h, Schedule.usual_pick, if_neg fun hnow => Nat.ne_of_gt htime hnow.2,
    if_pos ⟨hmem, htime⟩]

/-- The same can act at a moment, and perhaps the additional task. -/
theorem whoAt_widened {able able' : List (Who × Nat)}
    (h : Widened (Prod.map (Who.shift k) id) (·.1 = .task k) able able') (time : Nat) :
    Widened (Who.shift k) (· = .task k) (whoAt able time) (whoAt able' time) := by
  have hkept := h.filter (p := (·.2 == time)) fun _ _ => rfl
  exact hkept.map (fun _ _ => rfl) fun _ hm => hm

/-! ### Turns of the additional task -/

/-- What the turns that the additional task has taken tell under the usual schedule: that who was
acting could not go on, and that no jump of the clock was for the caller. -/
inductive Turn (ready : Engine W → Option Nat) (k : Nat) (e e' : Engine W) : Prop
  | before (now : e'.now = e.now) (active : e'.active = e.active.shift k)
  | after (active : e'.active = .task k) (unable : (e.active, e.now) ∉ e.able ready)
      (soon : ∀ t, ready e = some t → e'.now ≤ t) (still : ready e = some e'.now → e'.now = e.now)

theorem active_stepTask (e : Engine W) (k : Nat) (t : Task W) :
    (e.stepTask k t).active = e.active := by
  unfold stepTask
  split
  · rfl
  · split
    · split
      · rw [endTask_eq]
        rfl
      · rfl
      next kept later rest _ =>
        rcases (e.goOn k t rest).cancelClone_cases t.scope kept later with
          heq | ⟨_, -, ⟨-, heq⟩ | ⟨_, -, heq⟩⟩
        all_goals
          rw [heq]
          rfl
      · split
        · rfl
        · rw [endTask_eq]
          rfl
    · rfl

/-- Who has made a step is acting then. -/
theorem active_step {j : Nat} : (e.step time (.task j)).active = .task j := by
  unfold Engine.step
  dsimp only
  cases e.tasks[j]? with
  | none => rfl
  | some t => exact active_stepTask ..

/-- The additional task takes one more turn. -/
theorem Turn.step (h : Turn ready k e e')
    (hable : Widened (Prod.map (Who.shift k) id) (·.1 = .task k) (e.able ready) (e'.able ready))
    (hagree : ready e' = ready e) (hnext : e'.next usual ready = some (time, .task k)) :
    Turn ready k e (e'.step time (.task k)) := by
  have hback := mem_background_of_next hnext (by simp)
  have hnow := now_step hback
  have hle : e'.now ≤ time := now_le_of_mem_background hback
  obtain ⟨-, hfirst⟩ := mem_able_of_next hnext
  -- a jump of the clock would have been for the caller
  have hcaller (hready : ready e = some time) : time = e'.now := by
    refine Nat.le_antisymm (Nat.le_of_not_lt fun hlt => ?_) hle
    cases eq_caller_of_next hnext hlt (hagree.trans hready)
  refine .after active_step ?_ ?_ ?_
  · intro hactive
    cases h with
    | before now active =>
      -- who was acting could have gone on
      have hmem : (e'.active, e'.now) ∈ e'.able ready := by
        rw [active, now]
        exact hable.mem hactive
      have htime : time = e'.now := Nat.le_antisymm (hfirst _ hmem) hle
      exact Who.shift_ne k e.active (active.symm.trans (eq_active_of_next hnext htime hmem).symm)
    | after _ unable => exact unable hactive
  · intro t ht
    rw [hnow]
    exact (le_of_next hnext).2 t (hagree.trans ht)
  · rw [hnow]
    intro hready
    obtain rfl := hcaller hready
    cases h with
    | before now => exact now
    | after _ _ _ still => exact still hready

theorem Lags.turn (h : Lags usual ready k s e e') : Turn ready k e e' := by
  induction h with
  | abreast abreast => exact .before abreast.now abreast.active
  | idle lags next _ ih => exact ih.step lags.able lags.agree next

/-! ### The same pick -/

/-- Who acts, of the others, can act on both sides. -/
theorem shift_mem_iff {l l' : List Who} (h : Widened (Who.shift k) (· = .task k) l l') :
    who.shift k ∈ l' ↔ who ∈ l := by
  constructor
  · intro hmem
    rcases h.exists_of_mem hmem with heq | ⟨a, ha, heq⟩
    · exact absurd heq (Who.shift_ne k who)
    · exact Who.shift_inj.1 heq ▸ ha
  · intro hmem
    exact h.mem hmem

/-- The usual picks on both sides are the same, unless the additional task is picked. -/
theorem Turn.pick (h : Turn ready k e e') (hcrew : Crew k s e.tasks e'.tasks)
    (hnow : e.now ≤ e'.now)
    (hrow : Widened (Who.shift k) (· = .task k) (whoAt (e.able ready) time)
      (whoAt (e'.able ready) time)) :
    usual.pick e' time (whoAt (e'.able ready) time) = .task k ∨
      usual.pick e' time (whoAt (e'.able ready) time) =
        (usual.pick e time (whoAt (e.able ready) time)).shift k := by
  have hcaller : Who.shift k .caller ∈ whoAt (e'.able ready) time ↔
      .caller ∈ whoAt (e.able ready) time := shift_mem_iff hrow
  rw [Schedule.usual_pick, Schedule.usual_pick]
  by_cases hgoes : e'.active ∈ whoAt (e'.able ready) time ∧ time = e'.now
  · -- who is acting goes on
    rw [if_pos hgoes]
    cases h with
    | before now active =>
      rw [active, shift_mem_iff hrow, now] at hgoes
      rw [if_pos hgoes, active]
      exact .inr rfl
    | after active => exact .inl active
  have hgoes' : ¬ (e.active ∈ whoAt (e.able ready) time ∧ time = e.now) := by
    rintro ⟨hactive, htime⟩
    cases h with
    | before now active =>
      rw [active, shift_mem_iff hrow, now] at hgoes
      exact hgoes ⟨hactive, htime⟩
    | after _ unable => exact unable (htime ▸ mem_whoAt.1 hactive)
  rw [if_neg hgoes, if_neg hgoes']
  by_cases hjumps : .caller ∈ whoAt (e'.able ready) time ∧ e'.now < time
  · -- the clock jumps for the caller
    rw [if_pos hjumps, if_pos ⟨hcaller.1 hjumps.1, Nat.lt_of_le_of_lt hnow hjumps.2⟩]
    exact .inr rfl
  have hjumps' : ¬ (.caller ∈ whoAt (e.able ready) time ∧ e.now < time) := by
    rintro ⟨hmem, htime⟩
    have hlate : time ≤ e'.now := Nat.le_of_not_lt fun hlt => hjumps ⟨hcaller.2 hmem, hlt⟩
    cases h with
    | before now => exact Nat.not_lt.2 (now ▸ hlate) htime
    | after _ _ soon still =>
      have hready : ready e = some time := caller_mem_able.1 (mem_whoAt.1 hmem)
      obtain rfl : time = e'.now := Nat.le_antisymm hlate (soon time hready)
      exact Nat.ne_of_lt htime (still hready).symm
  rw [if_neg hjumps, if_neg hjumps']
  -- the longest waiting comes next
  have hothers := hrow.filter (p := (· != .caller)) fun a _ => by cases a <;> rfl
  have hnobody : Schedule.Chosen k e e' none none := .same none
  have hchosen := hnobody.foldl hcrew hothers
  generalize List.foldl (Schedule.longerOf e) _ _ = o at hchosen ⊢
  generalize List.foldl (Schedule.longerOf e') _ _ = o' at hchosen ⊢
  cases hchosen with
  | same =>
    right
    cases o <;> rfl
  | ahead => exact .inl rfl

end Engine

/-- The usual schedule picks alike with and without a task that has nothing to do. -/
theorem Schedule.alike_usual (k : Nat) : Schedule.Alike k (usual : Schedule W) usual where
  choose s ready e e' time whos whos' h hbase hwide := by
    obtain rfl := Engine.whos_eq_of_earliest hbase
    obtain rfl := Engine.whos_eq_of_earliest hwide
    rw [Engine.choose_usual e time (Engine.earliest_eq_some hbase).2.1,
      Engine.choose_usual e' time (Engine.earliest_eq_some hwide).2.1]
    exact h.turn.pick h.beside.crew h.now_le (Engine.whoAt_widened h.able time)
  scopeFirst _ _ _ _ := rfl

end ServiceHost
