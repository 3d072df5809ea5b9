import Mathlib.Logic.Relation
import ServiceHost.Proofs.Lifecycle.Budget
import ServiceHost.ScopeLog
/-!
The tree of scopes that a log of operations makes.

Which scope descends from which is read off the operations alone: the `i`-th scope was made by the
`i`-th operation that makes one (`ScopeLog.made`), as a child or as a copy of an earlier scope or of
none.  Scopes share a token if copying leads from one to the other, and a cancellation reaches the
scopes that copying, either way, and taking children lead to (`ScopeLog.Reaches`).

`ScopeLog.Tree` is the invariant that ties this to the tokens, which are rows of numbers: reaching
is the same as standing at the end of the other's row (`Tree.reaches_iff`).
-/

namespace ServiceHost

/-! ### Tokens -/

namespace Tokens

/-- A new root has been handed out. -/
theorem issued_root (ts : Tokens) : ts.root.2.Issued ts.root.1 :=
  ⟨by simp [root], by simp [root]⟩

/-- A new child of a token that has been handed out has been handed out. -/
theorem Issued.child {ts : Tokens} {t : Token} (h : ts.Issued t) :
    (ts.child t).2.Issued (ts.child t).1 := by
  refine ⟨by simp [Tokens.child], fun n hn => ?_⟩
  rcases List.mem_cons.1 hn with rfl | hn
  · exact Nat.lt_succ_self _
  · exact Nat.lt_succ_of_lt (h.2 n hn)

/-- Cancelling several tokens makes none. -/
theorem next_foldl_cancel (tokens : List Token) (ts : Tokens) :
    (tokens.foldl cancel ts).next = ts.next := by
  induction tokens generalizing ts with
  | nil => rfl
  | cons t tokens ih => exact ih (ts.cancel t)

end Tokens

namespace ScopeLog

open Engine Relation

/-! ### What made a scope -/

/-- Does the operation make a scope? -/
def Step.makes : Step → Bool
  | .background | .timeout _ | .child _ | .clone _ | .fromToken _ | .signals => true
  | .cancel _ | .advance _ | .signal | .wait .. => false

/-- Does the operation make a scope with a token of its own? -/
def Step.isNew : Step → Bool
  | .background | .timeout _ | .child _ | .signals => true
  | _ => false

/-- The place of the scope that the operation is about. -/
def Step.place? : Step → Option Nat
  | .child i | .clone i | .fromToken i | .cancel i | .wait i _ => some i
  | _ => none

/-- The operations that made the scopes, in the order of the scopes. -/
def made (steps : List Step) : List Step :=
  steps.filter Step.makes

/-- The scope at `j` was made from the one at `i` and has its token. -/
def Copies (steps : List Step) (i j : Nat) : Prop :=
  (made steps)[j]? = some (.clone i) ∨ (made steps)[j]? = some (.fromToken i)

/-- The scope at `j` was made as a child of the one at `i`. -/
def Begets (steps : List Step) (i j : Nat) : Prop :=
  (made steps)[j]? = some (.child i)

/-- Copying, in one direction or the other, or taking a child leads from `i` to `j`. -/
def Leads (steps : List Step) (i j : Nat) : Prop :=
  Copies steps i j ∨ Copies steps j i ∨ Begets steps i j

/-- The scope at `j` has the token of the one at `i`, or a token that descends from it. -/
abbrev Reaches (steps : List Step) : Nat → Nat → Prop :=
  ReflTransGen (Leads steps)

theorem made_append (steps more : List Step) : made (steps ++ more) = made steps ++ made more :=
  List.filter_append ..

theorem made_snoc_of_makes {s : Step} (h : s.makes = true) (steps : List Step) :
    made (steps ++ [s]) = made steps ++ [s] := by
  rw [made_append]
  simp [made, h]

theorem made_snoc_of_not_makes {s : Step} (h : s.makes = false) (steps : List Step) :
    made (steps ++ [s]) = made steps := by
  rw [made_append]
  simp [made, h]

/-! ### Runs of operations -/

/-- A log comes about from another one by some operations, each of which is about a scope that is
there. -/
inductive Runs (start : ScopeLog) : List Step → ScopeLog → Prop
  | nil : Runs start [] start
  | snoc {steps : List Step} {log log' : ScopeLog} {s : Step} {w : Option Waited}
      (before : Runs start steps log) (there : ∀ i ∈ s.place?, i < log.scopes.length)
      (does : log.step s = some (log', w)) : Runs start (steps ++ [s]) log'

/-- The only operation that is refused asks for a deadline that the clock cannot show. -/
theorem step_eq_none_iff {log : ScopeLog} {s : Step} :
    log.step s = none ↔ ∃ d, s = .timeout d ∧ clockLimit ≤ log.now + d := by
  cases s with
  | timeout d =>
    simp only [step, Option.map_eq_none_iff, Scope.withTimeout, Step.timeout.injEq]
    split
    next hfits => simpa using hfits
    next hfits => simpa using hfits
  | _ => simp [step]

/-! ### Adding a scope, and passing time -/

variable {steps : List Step} {log log' : ScopeLog} {s : Scope} {ts : Tokens}

theorem scope_add_of_lt {x : Scope × Tokens} {i : Nat} (h : i < log.scopes.length) :
    (log.add x).scope i = log.scope i := by
  simp [add, scope, List.getD, List.getElem?_append_left h]

@[simp] theorem scope_add_last {x : Scope × Tokens} :
    (log.add x).scope log.scopes.length = x.1 := by
  simp [add, scope, List.getD]

/-- What a timeout makes is a scope of its own. -/
theorem eq_of_step_timeout {d : Nat} {w : Option Waited}
    (does : log.step (.timeout d) = some (log', w)) :
    log' = log.add (⟨log.tokens.root.1, some (log.now + d)⟩, log.tokens.root.2) := by
  obtain ⟨⟨s, ts⟩, hscope, heq⟩ := Option.map_eq_some_iff.1 does
  obtain ⟨rfl, -⟩ := Prod.mk.inj heq
  unfold Scope.withTimeout at hscope
  split at hscope
  next =>
    obtain ⟨rfl, rfl⟩ := Prod.mk.inj (Option.some.inj hscope)
    rfl
  next => cases hscope

/-- A wait changes nothing but the clock, which goes on. -/
theorem eq_of_step_wait {i limit : Nat} {w : Option Waited}
    (does : log.step (.wait i limit) = some (log', w)) :
    ∃ t, log.now ≤ t ∧ log' = { log with now := t } := by
  obtain rfl : (log.wait (log.scope i) limit).1 = log' := (Prod.mk.inj (Option.some.inj does)).1
  unfold wait
  split
  next t ht =>
    split
    · exact ⟨t, now_le_doneAt ht, rfl⟩
    · exact ⟨_, Nat.le_add_right .., rfl⟩
  next => exact ⟨_, Nat.le_add_right .., rfl⟩

/-! ### The tree -/

/-- What the scope at a place is, going by the operation that made it. -/
def Stems (log : ScopeLog) (i : Nat) : Step → Prop
  | .child j =>
    j < i ∧ ∃ n, log.scope i = ⟨n :: (log.scope j).token, (log.scope j).deadline⟩
  | .clone j => j < i ∧ log.scope i = log.scope j
  | .fromToken j => j < i ∧ log.scope i = ⟨(log.scope j).token, none⟩
  | .timeout d => ∃ n time, time ≤ log.now ∧ log.scope i = ⟨[n], some (time + d)⟩
  | _ => ∃ n, log.scope i = ⟨[n], none⟩

/-- What a scope stems from stays the same if no scope changes up to it. -/
theorem Stems.of_eq {i : Nat} {st : Step} (h : Stems log i st)
    (hscope : ∀ j ≤ i, log'.scope j = log.scope j) (hnow : log.now ≤ log'.now) :
    Stems log' i st := by
  cases st with
  | child j | clone j | fromToken j =>
    simp only [Stems] at h ⊢
    rwa [hscope i (Nat.le_refl i), hscope j (Nat.le_of_lt h.1)]
  | timeout d =>
    obtain ⟨n, time, htime, hi⟩ := h
    exact ⟨n, time, Nat.le_trans htime hnow, (hscope i (Nat.le_refl i)).trans hi⟩
  | background | signals | cancel | advance | signal | wait =>
    simp only [Stems] at h ⊢
    rwa [hscope i (Nat.le_refl i)]

/-- The scopes of a log are those that the operations made, and no two operations that make a new
token have given it the same number. -/
structure Tree (steps : List Step) (log : ScopeLog) : Prop where
  length : log.scopes.length = (made steps).length
  stems : ∀ i st, (made steps)[i]? = some st → Stems log i st
  apart : ∀ i j st st', (made steps)[i]? = some st → (made steps)[j]? = some st' →
    st.isNew = true → st'.isNew = true →
    (log.scope i).token.head? = (log.scope j).token.head? → i = j
  issued : ∀ i < log.scopes.length, log.tokens.Issued (log.scope i).token

namespace Tree

theorem start : Tree [] {} :=
  ⟨rfl, by simp [made], by simp [made], by simp⟩

/-- No scope is made. -/
theorem of_eq (h : Tree steps log) {st : Step} (hmakes : st.makes = false)
    (hscopes : log'.scopes = log.scopes) (hnext : log'.tokens.next = log.tokens.next)
    (hnow : log.now ≤ log'.now) : Tree (steps ++ [st]) log' := by
  have hscope (i : Nat) : log'.scope i = log.scope i := by rw [scope, hscopes, scope]
  constructor
  · rw [hscopes, made_snoc_of_not_makes hmakes]
    exact h.length
  · intro i st' hi
    rw [made_snoc_of_not_makes hmakes] at hi
    exact (h.stems i st' hi).of_eq (fun j _ => hscope j) hnow
  · intro i j st₁ st₂ hi hj
    rw [made_snoc_of_not_makes hmakes] at hi hj
    rw [hscope, hscope]
    exact h.apart i j st₁ st₂ hi hj
  · intro i hi
    rw [hscopes] at hi
    rw [hscope, Tokens.Issued, hnext]
    exact h.issued i hi

/-- A scope is made, whose token is an old one or begins with the number that comes next. -/
theorem add (h : Tree steps log) {st : Step} (hmakes : st.makes = true)
    (hstems : Stems (log.add (s, ts)) log.scopes.length st)
    (hnext : log.tokens.next ≤ ts.next) (hissued : ts.Issued s.token)
    (hnew : st.isNew = true → s.token.head? = some log.tokens.next) :
    Tree (steps ++ [st]) (log.add (s, ts)) := by
  have hlength : (log.add (s, ts)).scopes.length = log.scopes.length + 1 := by simp [ScopeLog.add]
  -- the number of an old token is not the one that comes next
  have hold {i : Nat} {st' : Step} (hi : (made steps)[i]? = some st') :
      i < log.scopes.length ∧ (log.scope i).token.head? ≠ some log.tokens.next := by
    have hlt : i < log.scopes.length := by
      rw [h.length]
      exact (List.getElem?_eq_some_iff.1 hi).1
    refine ⟨hlt, fun hhead => ?_⟩
    have hmem := List.mem_of_head? hhead
    exact Nat.lt_irrefl _ ((h.issued i hlt).2 _ hmem)
  -- the last scope is the new one, all others are old
  have hcases {i : Nat} {st' : Step} (hi : (made (steps ++ [st]))[i]? = some st') :
      (made steps)[i]? = some st' ∨ (i = log.scopes.length ∧ st' = st) := by
    rw [made_snoc_of_makes hmakes, List.getElem?_append] at hi
    split at hi
    · exact .inl hi
    next hle =>
      rw [h.length]
      obtain ⟨hlt, heq⟩ := List.getElem?_eq_some_iff.1 hi
      simp only [List.length_singleton] at hlt
      refine .inr ⟨by omega, ?_⟩
      simpa using heq.symm
  constructor
  · rw [hlength, made_snoc_of_makes hmakes, h.length, List.length_append, List.length_singleton]
  · intro i st' hi
    rcases hcases hi with hi | ⟨rfl, rfl⟩
    · have hlt := (hold hi).1
      exact (h.stems i st' hi).of_eq (fun j hj => scope_add_of_lt (by omega)) (Nat.le_refl _)
    · exact hstems
  · intro i j st₁ st₂ hi hj hi' hj' hhead
    rcases hcases hi with hmade | ⟨hlast, rfl⟩ <;> rcases hcases hj with hmade' | ⟨hlast', rfl⟩
    · rw [scope_add_of_lt (hold hmade).1, scope_add_of_lt (hold hmade').1] at hhead
      exact h.apart i j st₁ st₂ hmade hmade' hi' hj' hhead
    · rw [scope_add_of_lt (hold hmade).1, hlast', scope_add_last, hnew hj'] at hhead
      exact absurd hhead (hold hmade).2
    · rw [scope_add_of_lt (hold hmade').1, hlast, scope_add_last, hnew hi'] at hhead
      exact absurd hhead.symm (hold hmade').2
    · exact hlast.trans hlast'.symm
  · intro i hi
    rw [hlength] at hi
    rcases Nat.lt_succ_iff_lt_or_eq.1 hi with hi | rfl
    · rw [scope_add_of_lt hi]
      have hold := h.issued i hi
      exact ⟨hold.1, fun n hn => Nat.lt_of_lt_of_le (hold.2 n hn) hnext⟩
    · rw [scope_add_last]
      exact hissued

/-- Each operation leaves the scopes to be those that the operations made. -/
theorem step (h : Tree steps log) {st : Step} {w : Option Waited}
    (there : ∀ i ∈ st.place?, i < log.scopes.length) (does : log.step st = some (log', w)) :
    Tree (steps ++ [st]) log' := by
  cases st with
  | background =>
    obtain ⟨rfl, -⟩ := Prod.mk.inj (Option.some.inj does)
    exact h.add rfl ⟨_, scope_add_last⟩ (Nat.le_succ _) (Tokens.issued_root _) fun _ => rfl
  | signals =>
    obtain ⟨rfl, -⟩ := Prod.mk.inj (Option.some.inj does)
    have hadd : Tree (steps ++ [.signals]) (log.add (Scope.background log.tokens)) :=
      h.add rfl ⟨_, scope_add_last⟩ (Nat.le_succ _) (Tokens.issued_root _) fun _ => rfl
    exact ⟨hadd.length, hadd.stems, hadd.apart, hadd.issued⟩
  | timeout d =>
    obtain rfl := eq_of_step_timeout does
    exact h.add rfl ⟨_, log.now, Nat.le_refl _, scope_add_last⟩ (Nat.le_succ _)
      (Tokens.issued_root _) fun _ => rfl
  | child i =>
    obtain ⟨rfl, -⟩ := Prod.mk.inj (Option.some.inj does)
    have hi := there i rfl
    refine h.add rfl ⟨hi, log.tokens.next, ?_⟩ (Nat.le_succ _) (h.issued i hi).child fun _ => rfl
    rw [scope_add_last, scope_add_of_lt hi]
  | clone i =>
    obtain ⟨rfl, -⟩ := Prod.mk.inj (Option.some.inj does)
    have hi := there i rfl
    refine h.add rfl ⟨hi, ?_⟩ (Nat.le_refl _) (h.issued i hi) nofun
    rw [scope_add_last, scope_add_of_lt hi]
  | fromToken i =>
    obtain ⟨rfl, -⟩ := Prod.mk.inj (Option.some.inj does)
    have hi := there i rfl
    refine h.add rfl ⟨hi, ?_⟩ (Nat.le_refl _) (h.issued i hi) nofun
    rw [scope_add_last, scope_add_of_lt hi]
  | cancel i =>
    obtain ⟨rfl, -⟩ := Prod.mk.inj (Option.some.inj does)
    exact h.of_eq rfl rfl rfl (Nat.le_refl _)
  | advance d =>
    obtain ⟨rfl, -⟩ := Prod.mk.inj (Option.some.inj does)
    exact h.of_eq rfl rfl rfl (Nat.le_add_right ..)
  | signal =>
    obtain ⟨rfl, -⟩ := Prod.mk.inj (Option.some.inj does)
    exact h.of_eq rfl rfl (Tokens.next_foldl_cancel ..) (Nat.le_refl _)
  | wait i limit =>
    obtain ⟨t, ht, rfl⟩ := eq_of_step_wait does
    exact h.of_eq rfl rfl rfl ht

/-- A scope that was made is there. -/
theorem lt_of_made (h : Tree steps log) {i : Nat} {st : Step} (hi : (made steps)[i]? = some st) :
    i < log.scopes.length := by
  rw [h.length]
  exact (List.getElem?_eq_some_iff.1 hi).1

/-- A scope that is there was made. -/
theorem exists_made (h : Tree steps log) {i : Nat} (hi : i < log.scopes.length) :
    ∃ st, (made steps)[i]? = some st ∧ st.makes = true := by
  rw [h.length] at hi
  exact ⟨_, List.getElem?_eq_getElem hi, (List.mem_filter.1 (List.getElem_mem hi)).2⟩

/-- A copy has the token of the scope that it was made from. -/
theorem token_of_copies (h : Tree steps log) {i j : Nat} (hcopies : Copies steps i j) :
    i < j ∧ (log.scope j).token = (log.scope i).token := by
  rcases hcopies with hj | hj
  · obtain ⟨hlt, heq⟩ := h.stems _ _ hj
    exact ⟨hlt, by rw [heq]⟩
  · obtain ⟨hlt, heq⟩ := h.stems _ _ hj
    exact ⟨hlt, by rw [heq]⟩

/-- A child has a number of its own before the token of its parent. -/
theorem token_of_begets (h : Tree steps log) {i j : Nat} (hbegets : Begets steps i j) :
    i < j ∧ ∃ n, (log.scope j).token = n :: (log.scope i).token := by
  obtain ⟨hlt, n, heq⟩ := h.stems _ _ hbegets
  exact ⟨hlt, n, by rw [heq]⟩

theorem suffix_of_reaches (h : Tree steps log) {i j : Nat} (hreaches : Reaches steps i j) :
    (log.scope i).token <:+ (log.scope j).token := by
  induction hreaches with
  | refl => exact List.suffix_refl _
  | tail _ hlast ih =>
    apply ih.trans
    rcases hlast with hcopies | hcopies | hbegets
    · exact (h.token_of_copies hcopies).2 ▸ List.suffix_refl _
    · exact (h.token_of_copies hcopies).2 ▸ List.suffix_refl _
    · obtain ⟨-, n, heq⟩ := h.token_of_begets hbegets
      rw [heq]
      exact List.suffix_cons ..

/-- Every scope has its token from one that was made with a token of its own. -/
theorem exists_new (h : Tree steps log) {i : Nat} (hi : i < log.scopes.length) :
    ∃ m ≤ i, ∃ st, (made steps)[m]? = some st ∧ st.isNew = true ∧
      (log.scope m).token = (log.scope i).token ∧ Reaches steps m i ∧ Reaches steps i m := by
  induction i using Nat.strong_induction_on with
  | _ i ih =>
    obtain ⟨st, hst, hmakes⟩ := h.exists_made hi
    -- a copy goes back to the scope before it
    have hcopy (j : Nat) (hcopies : Copies steps j i) : ∃ m ≤ i, ∃ st,
        (made steps)[m]? = some st ∧ st.isNew = true ∧
          (log.scope m).token = (log.scope i).token ∧ Reaches steps m i ∧ Reaches steps i m := by
      obtain ⟨hlt, htoken⟩ := h.token_of_copies hcopies
      obtain ⟨m, hm, st, hmade, hnew, hsame, hdown, hup⟩ := ih j hlt (Nat.lt_trans hlt hi)
      exact ⟨m, Nat.le_trans hm (Nat.le_of_lt hlt), st, hmade, hnew, hsame.trans htoken.symm,
        hdown.tail (.inl hcopies), .head (.inr (.inl hcopies)) hup⟩
    cases st with
    | clone j => exact hcopy j (.inl hst)
    | fromToken j => exact hcopy j (.inr hst)
    | background | timeout | child | signals =>
      exact ⟨i, Nat.le_refl i, _, hst, rfl, rfl, .refl, .refl⟩
    | cancel | advance | signal | wait => cases hmakes

/-- The token of a scope stands at the end of the tokens of those that it reaches, and of no
others. -/
theorem reaches_iff (h : Tree steps log) {i j : Nat} (hi : i < log.scopes.length)
    (hj : j < log.scopes.length) :
    Reaches steps i j ↔ (log.scope i).token <:+ (log.scope j).token := by
  refine ⟨h.suffix_of_reaches, fun hsuffix => ?_⟩
  induction j using Nat.strong_induction_on with
  | _ j ih =>
    obtain ⟨a, -, sta, hamade, hanew, hatoken, -, hup⟩ := h.exists_new hi
    obtain ⟨b, hb, stb, hbmade, hbnew, hbtoken, hdown, -⟩ := h.exists_new hj
    have hne : (log.scope i).token ≠ [] := (h.issued i hi).1
    -- both tokens are as they were made: either they are the same, or one stands at the end of
    -- the token that the other was made from
    by_cases hsame : (log.scope i).token = (log.scope j).token
    · have hhead : (log.scope a).token.head? = (log.scope b).token.head? := by
        rw [hatoken, hbtoken, hsame]
      obtain rfl := h.apart a b sta stb hamade hbmade hanew hbnew hhead
      exact hup.trans hdown
    · rw [← hbtoken] at hsuffix hsame
      have hstems := h.stems b stb hbmade
      cases stb with
      | child k =>
        obtain ⟨hlt, n, heq⟩ := h.token_of_begets hbmade
        rw [heq] at hsuffix hsame
        have hbegets : Leads steps k b := .inr (.inr hbmade)
        rcases List.suffix_cons_iff.1 hsuffix with hwhole | hrest
        · exact absurd hwhole hsame
        · exact ((ih k (by omega) (by omega) hrest).tail hbegets).trans hdown
      | background | signals =>
        obtain ⟨n, heq⟩ := hstems
        rw [heq] at hsuffix hsame
        rcases List.suffix_cons_iff.1 hsuffix with hwhole | hrest
        · exact absurd hwhole hsame
        · exact absurd (List.suffix_nil.1 hrest) hne
      | timeout d =>
        obtain ⟨n, time, -, heq⟩ := hstems
        rw [heq] at hsuffix hsame
        rcases List.suffix_cons_iff.1 hsuffix with hwhole | hrest
        · exact absurd hwhole hsame
        · exact absurd (List.suffix_nil.1 hrest) hne
      | clone | fromToken | cancel | advance | signal | wait => cases hbnew

end Tree

end ScopeLog

end ServiceHost
