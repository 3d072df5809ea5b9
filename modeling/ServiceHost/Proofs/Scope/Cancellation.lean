import ServiceHost.Proofs.Scope.Descent
/-!
What a cancellation does to the scopes of a log.

The tokens that are cancelled are those of the scopes on which that was asked for, by an operation
or by a signal (`ScopeLog.Told`).  Since a token is lost with any that it ends with, the log obeys
the law that `cancellation_lawful` states: wherever in the row of operations a cancellation stands,
it takes the scopes that it reaches, those made before it and those made after it.
-/

namespace ServiceHost

/-! ### Tokens and scopes -/

namespace Tokens

/-- Several tokens are cancelled, and those that were before. -/
theorem mem_cancelled_foldl (tokens : List Token) (ts : Tokens) (t : Token) :
    t ∈ (tokens.foldl cancel ts).cancelled ↔ t ∈ tokens ∨ t ∈ ts.cancelled := by
  induction tokens generalizing ts with
  | nil => simp
  | cons c tokens ih =>
    rw [List.foldl_cons, ih (ts.cancel c)]
    simp only [cancel, List.mem_cons]
    tauto

/-- A token is cancelled just in case one that it ends with was. -/
theorem isCancelled_iff {ts : Tokens} {t : Token} :
    ts.isCancelled t = true ↔ ∃ c ∈ ts.cancelled, c <:+ t := by
  simp [isCancelled]

end Tokens

/-- A scope is done when its token is cancelled or its deadline has come. -/
theorem Scope.isDone_iff {s : Scope} {ts : Tokens} {now : Nat} :
    s.isDone ts now = true ↔ s.isCancelled ts = true ∨ ∃ d, s.deadline = some d ∧ d ≤ now := by
  simp [isDone, Option.any_eq_true]

namespace ScopeLog

open Relation

/-! ### What was asked for -/

/-- The scope at `j` was made from the one at `i` by taking children and clones, which keep the
deadline. -/
abbrev Derives (steps : List Step) : Nat → Nat → Prop :=
  ReflTransGen fun i j => Begets steps i j ∨ (made steps)[j]? = some (.clone i)

/-- Cancelling was asked for on the scope at `i`, by an operation or by a signal that came after the
scope was made to listen to signals. -/
def Cancels (steps : List Step) (i : Nat) : Prop :=
  .cancel i ∈ steps ∨
    ∃ before after, steps = before ++ .signal :: after ∧ (made before)[i]? = some .signals

/-- One operation more can ask for one cancellation more, or for those of all scopes that listen. -/
theorem cancels_snoc_iff {steps : List Step} {s : Step} {i : Nat} :
    Cancels (steps ++ [s]) i ↔
      Cancels steps i ∨ s = .cancel i ∨ (s = .signal ∧ (made steps)[i]? = some .signals) := by
  unfold Cancels
  constructor
  · rintro (hmem | ⟨before, after, heq, hmade⟩)
    · rcases List.mem_append.1 hmem with hmem | hmem
      · exact .inl (.inl hmem)
      · exact .inr (.inl (List.mem_singleton.1 hmem).symm)
    · -- the signal is the last operation, or it stands before it
      rcases List.eq_nil_or_concat after with rfl | ⟨after, last, rfl⟩
      · obtain ⟨rfl, hlast⟩ := List.append_inj' heq rfl
        exact .inr (.inr ⟨List.singleton_inj.1 hlast, hmade⟩)
      · rw [List.concat_eq_append, ← List.cons_append, ← List.append_assoc] at heq
        exact .inl (.inr ⟨before, after, (List.append_inj' heq rfl).1, hmade⟩)
  · rintro ((hmem | ⟨before, after, rfl, hmade⟩) | rfl | ⟨rfl, hmade⟩)
    · exact .inl (List.mem_append_left _ hmem)
    · exact .inr ⟨before, after ++ [s], by simp, hmade⟩
    · exact .inl (by simp)
    · exact .inr ⟨steps, [], rfl, hmade⟩

variable {steps : List Step} {log log' : ScopeLog} {s : Scope} {ts : Tokens}

/-! ### What is cancelled -/

/-- The tokens that are cancelled are those of the scopes on which that was asked for, and the
scopes that were made to listen to signals do so until they are cancelled. -/
structure Told (steps : List Step) (log : ScopeLog) : Prop where
  there : ∀ i, Cancels steps i → i < log.scopes.length
  cancelled : ∀ t, t ∈ log.tokens.cancelled ↔ ∃ i, Cancels steps i ∧ (log.scope i).token = t
  listening : ∀ t ∈ log.listening,
    ∃ i, (made steps)[i]? = some .signals ∧ (log.scope i).token = t
  heard : ∀ i, (made steps)[i]? = some .signals →
    (log.scope i).token ∈ log.listening ∨ (log.scope i).token ∈ log.tokens.cancelled

namespace Told

theorem start : Told [] {} :=
  ⟨by simp [Cancels], by simp [Cancels], by simp, by simp [made]⟩

/-- Nothing is cancelled, and no scope is made. -/
theorem of_eq (h : Told steps log) {st : Step} (hmakes : st.makes = false)
    (hcancels : ∀ i, Cancels (steps ++ [st]) i ↔ Cancels steps i)
    (hscopes : log'.scopes = log.scopes) (htokens : log'.tokens = log.tokens)
    (hlistening : log'.listening = log.listening) : Told (steps ++ [st]) log' := by
  have hscope (i : Nat) : log'.scope i = log.scope i := by rw [scope, hscopes, scope]
  constructor
  · simp only [hscopes, hcancels]
    exact h.there
  · simp only [htokens, hscope, hcancels]
    exact h.cancelled
  · simp only [hlistening, hscope, made_snoc_of_not_makes hmakes]
    exact h.listening
  · simp only [hlistening, htokens, hscope, made_snoc_of_not_makes hmakes]
    exact h.heard

/-- A scope is made, which listens to signals if it was made to. -/
theorem add (h : Told steps log) (htree : Tree steps log) (st : Step) (x : Scope × Tokens)
    (hmakes : st.makes = true) (hcancelled : x.2.cancelled = log.tokens.cancelled)
    {listening : List Token} (hsub : log.listening ⊆ listening)
    (hlistening : ∀ t ∈ listening, t ∈ log.listening ∨ (st = .signals ∧ t = x.1.token))
    (hsignals : st = .signals → x.1.token ∈ listening) :
    Told (steps ++ [st]) { log.add x with listening := listening } := by
  have hcancels (i : Nat) : Cancels (steps ++ [st]) i ↔ Cancels steps i := by
    rw [cancels_snoc_iff]
    have hcancel : st ≠ .cancel i := fun heq => by simp [heq, Step.makes] at hmakes
    have hsignal : st ≠ .signal := fun heq => by simp [heq, Step.makes] at hmakes
    simp [hcancel, hsignal]
  have hold {i : Nat} (hi : i < log.scopes.length) : (log.add x).scope i = log.scope i :=
    scope_add_of_lt hi
  have hmade : made (steps ++ [st]) = made steps ++ [st] := made_snoc_of_makes hmakes steps
  constructor
  · intro i hi
    have hlt := h.there i ((hcancels i).1 hi)
    simp only [ScopeLog.add, List.length_append]
    omega
  · intro t
    refine (hcancelled ▸ h.cancelled t :).trans (exists_congr fun i => ?_)
    rw [hcancels]
    refine and_congr_right fun hi => ?_
    rw [← hold (h.there i hi)]
    rfl
  · intro t ht
    rcases hlistening t ht with ht | ⟨rfl, rfl⟩
    · obtain ⟨i, hi, rfl⟩ := h.listening t ht
      have hlt := htree.lt_of_made hi
      refine ⟨i, ?_, congrArg Scope.token (hold hlt)⟩
      rw [hmade, List.getElem?_append_left (htree.length ▸ hlt)]
      exact hi
    · refine ⟨log.scopes.length, ?_, congrArg Scope.token scope_add_last⟩
      rw [hmade, htree.length]
      simp
  · intro i hi
    rw [hmade, List.getElem?_append] at hi
    split at hi
    next hlt =>
      have htoken := congrArg Scope.token (hold (htree.length.symm ▸ hlt))
      refine (h.heard i hi).imp (fun hmem => ?_) fun hmem => ?_
      · exact htoken ▸ hsub hmem
      · show _ ∈ x.2.cancelled
        rw [hcancelled]
        exact htoken ▸ hmem
    next hle =>
      -- the last scope is the new one
      obtain ⟨hlt, heq⟩ := List.getElem?_eq_some_iff.1 hi
      obtain rfl : st = .signals := by simpa using heq
      obtain rfl : i = log.scopes.length := by
        rw [htree.length]
        simp only [List.length_singleton] at hlt
        omega
      refine .inl ?_
      have htoken : ((log.add x).scope log.scopes.length).token = x.1.token :=
        congrArg Scope.token scope_add_last
      exact htoken ▸ hsignals rfl

/-- Each operation leaves the cancelled tokens to be those of the scopes on which that was asked
for. -/
theorem step (h : Told steps log) (htree : Tree steps log) {st : Step} {w : Option Waited}
    (there : ∀ i ∈ st.place?, i < log.scopes.length) (does : log.step st = some (log', w)) :
    Told (steps ++ [st]) log' := by
  cases st with
  | background =>
    obtain ⟨rfl, -⟩ := Prod.mk.inj (Option.some.inj does)
    exact h.add htree .background (Scope.background log.tokens) rfl rfl
      (List.Subset.refl _) (fun t ht => .inl ht) nofun
  | child i =>
    obtain ⟨rfl, -⟩ := Prod.mk.inj (Option.some.inj does)
    exact h.add htree (.child i) (Scope.child log.tokens (log.scope i)) rfl rfl
      (List.Subset.refl _) (fun t ht => .inl ht) nofun
  | clone i =>
    obtain ⟨rfl, -⟩ := Prod.mk.inj (Option.some.inj does)
    exact h.add htree (.clone i) (log.scope i, log.tokens) rfl rfl
      (List.Subset.refl _) (fun t ht => .inl ht) nofun
  | fromToken i =>
    obtain ⟨rfl, -⟩ := Prod.mk.inj (Option.some.inj does)
    exact h.add htree (.fromToken i) (⟨(log.scope i).token, none⟩, log.tokens) rfl rfl
      (List.Subset.refl _) (fun t ht => .inl ht) nofun
  | signals =>
    obtain ⟨rfl, -⟩ := Prod.mk.inj (Option.some.inj does)
    refine h.add htree .signals (Scope.background log.tokens) rfl rfl
      (List.subset_cons_self ..) (fun t ht => ?_) fun _ => ?_
    · exact (List.mem_cons.1 ht).symm.imp_right fun heq => ⟨rfl, heq⟩
    · exact List.mem_cons_self
  | timeout d =>
    obtain rfl := eq_of_step_timeout does
    exact h.add htree (.timeout d) (_, log.tokens.root.2) rfl rfl
      (List.Subset.refl _) (fun t ht => .inl ht) nofun
  | cancel i =>
    obtain ⟨rfl, -⟩ := Prod.mk.inj (Option.some.inj does)
    have hcancels (j : Nat) : Cancels (steps ++ [.cancel i]) j ↔ Cancels steps j ∨ j = i := by
      rw [cancels_snoc_iff]
      simp [eq_comm]
    constructor
    · intro j hj
      rcases (hcancels j).1 hj with hj | rfl
      · exact h.there j hj
      · exact there j rfl
    · intro t
      simp only [hcancels, or_and_right, exists_or, exists_eq_left]
      show t ∈ _ :: _ ↔
        (∃ j, Cancels steps j ∧ (log.scope j).token = t) ∨ (log.scope i).token = t
      rw [← h.cancelled, List.mem_cons, or_comm, eq_comm]
    · rw [made_snoc_of_not_makes rfl]
      exact h.listening
    · rw [made_snoc_of_not_makes rfl]
      exact fun j hj => (h.heard j hj).imp_right (List.mem_cons_of_mem _)
  | signal =>
    obtain ⟨rfl, -⟩ := Prod.mk.inj (Option.some.inj does)
    have hcancels (j : Nat) : Cancels (steps ++ [.signal]) j ↔
        Cancels steps j ∨ (made steps)[j]? = some .signals := by
      rw [cancels_snoc_iff]
      simp
    constructor
    · intro j hj
      rcases (hcancels j).1 hj with hj | hj
      · exact h.there j hj
      · exact htree.lt_of_made hj
    · intro t
      simp only [hcancels, or_and_right, exists_or]
      show t ∈ (List.foldl Tokens.cancel log.tokens log.listening).cancelled ↔ _
      rw [Tokens.mem_cancelled_foldl]
      constructor
      · rintro (ht | ht)
        · exact .inr (h.listening t ht)
        · exact .inl ((h.cancelled t).1 ht)
      · rintro (ht | ⟨i, hi, rfl⟩)
        · exact .inr ((h.cancelled t).2 ht)
        · exact h.heard i hi
    · simp
    · intro i hi
      rw [made_snoc_of_not_makes rfl] at hi
      exact .inr ((Tokens.mem_cancelled_foldl ..).2 (h.heard i hi))
  | advance d =>
    obtain ⟨rfl, -⟩ := Prod.mk.inj (Option.some.inj does)
    exact h.of_eq rfl (fun i => by rw [cancels_snoc_iff]; simp) rfl rfl rfl
  | wait i limit =>
    obtain ⟨t, -, rfl⟩ := eq_of_step_wait does
    exact h.of_eq rfl (fun i => by rw [cancels_snoc_iff]; simp) rfl rfl rfl

end Told

/-- The scopes of every log are those that the operations made, and what is cancelled is what the
operations asked for. -/
theorem Runs.tree (h : Runs {} steps log) : Tree steps log ∧ Told steps log := by
  induction h with
  | nil => exact ⟨.start, .start⟩
  | snoc _ there does ih => exact ⟨ih.1.step there does, ih.2.step ih.1 there does⟩

/-! ### Later logs -/

/-- Nothing that was there is gone, and the clock has not gone back. -/
structure Later (log log' : ScopeLog) : Prop where
  scopes : log.scopes <+: log'.scopes
  cancelled : log.tokens.cancelled ⊆ log'.tokens.cancelled
  now_le : log.now ≤ log'.now

namespace Later

theorem trans {log'' : ScopeLog} (h : Later log log') (h' : Later log' log'') : Later log log'' :=
  ⟨h.scopes.trans h'.scopes, fun _ ht => h'.cancelled (h.cancelled ht), h.now_le.trans h'.now_le⟩

theorem add (hcancelled : ts.cancelled = log.tokens.cancelled) : Later log (log.add (s, ts)) :=
  ⟨List.prefix_append .., hcancelled ▸ List.Subset.refl _, Nat.le_refl _⟩

/-- What one operation leaves is there. -/
theorem of_step {st : Step} {w : Option Waited} (does : log.step st = some (log', w)) :
    Later log log' := by
  cases st with
  | background | child | clone | fromToken =>
    obtain ⟨rfl, -⟩ := Prod.mk.inj (Option.some.inj does)
    exact .add rfl
  | signals =>
    obtain ⟨rfl, -⟩ := Prod.mk.inj (Option.some.inj does)
    exact ⟨List.prefix_append .., List.Subset.refl _, Nat.le_refl _⟩
  | timeout d =>
    obtain rfl := eq_of_step_timeout does
    exact .add rfl
  | cancel i =>
    obtain ⟨rfl, -⟩ := Prod.mk.inj (Option.some.inj does)
    exact ⟨List.prefix_refl _, List.subset_cons_self .., Nat.le_refl _⟩
  | signal =>
    obtain ⟨rfl, -⟩ := Prod.mk.inj (Option.some.inj does)
    exact ⟨List.prefix_refl _, fun t ht => (Tokens.mem_cancelled_foldl ..).2 (.inr ht),
      Nat.le_refl _⟩
  | advance d =>
    obtain ⟨rfl, -⟩ := Prod.mk.inj (Option.some.inj does)
    exact ⟨List.prefix_refl _, List.Subset.refl _, Nat.le_add_right ..⟩
  | wait i limit =>
    obtain ⟨t, ht, rfl⟩ := eq_of_step_wait does
    exact ⟨List.prefix_refl _, List.Subset.refl _, ht⟩

theorem of_runs {start : ScopeLog} (h : Runs start steps log) : Later start log := by
  induction h with
  | nil => exact ⟨List.prefix_refl _, List.Subset.refl _, Nat.le_refl _⟩
  | snoc _ _ does ih => exact ih.trans (of_step does)

/-- The scope at a place stays as it is. -/
theorem scope_eq (h : Later log log') {i : Nat} (hi : i < log.scopes.length) :
    log'.scope i = log.scope i := by
  obtain ⟨new, hnew⟩ := h.scopes
  rw [scope, scope, ← hnew, List.getD, List.getD, List.getElem?_append_left hi]

/-- A scope that is cancelled stays so. -/
theorem isCancelled (h : Later log log') (hs : s.isCancelled log.tokens = true) :
    s.isCancelled log'.tokens = true := by
  obtain ⟨c, hc, hsuffix⟩ := Tokens.isCancelled_iff.1 hs
  exact Tokens.isCancelled_iff.2 ⟨c, h.cancelled hc, hsuffix⟩

/-- A scope that is done stays so. -/
theorem isDone (h : Later log log') (hs : s.isDone log.tokens log.now = true) :
    s.isDone log'.tokens log'.now = true :=
  Scope.isDone_iff.2 ((Scope.isDone_iff.1 hs).imp h.isCancelled
    fun ⟨d, hd, hle⟩ => ⟨d, hd, hle.trans h.now_le⟩)

end Later

/-! ### The law of cancellation -/

/-- The deadline of a scope that an operation makes. -/
def deadlineOf (log : ScopeLog) : Step → Option Nat
  | .timeout d => some (log.now + d)
  | .child i | .clone i => (log.scope i).deadline
  | _ => none

/-- The law of cancellation for a log that some operations made. -/
structure Lawful (steps : List Step) (log : ScopeLog) : Prop where
  /-- Nothing is refused but a deadline that the clock cannot show. -/
  possible : ∀ s, log.step s = none ↔ ∃ d, s = .timeout d ∧ clockLimit ≤ log.now + d
  /-- A scope is cancelled just in case that was asked for on a scope that reaches it. -/
  cancelled_iff : ∀ i < log.scopes.length,
    (log.scope i).isCancelled log.tokens = true ↔ ∃ j, Cancels steps j ∧ Reaches steps j i
  /-- Cancelling a scope changes those that it reaches, and no others. -/
  cancel : ∀ i < log.scopes.length, ∀ log' w, log.step (.cancel i) = some (log', w) →
    ∀ k < log.scopes.length, (log'.scope k).isCancelled log'.tokens = true ↔
      (log.scope k).isCancelled log.tokens = true ∨ Reaches steps i k
  /-- A child reaches neither its parent nor another child of its parent. -/
  child_alone : ∀ i j, Begets steps i j → ¬ Reaches steps j i ∧
    ∀ k, Begets steps i k → k ≠ j → ¬ Reaches steps j k
  /-- A child is born cancelled just in case its parent is cancelled. -/
  born : ∀ i < log.scopes.length, ∀ log' w, log.step (.child i) = some (log', w) →
    (log'.scope log.scopes.length).isCancelled log'.tokens = (log.scope i).isCancelled log.tokens
  /-- The deadline of a scope is that of the operation that makes it. -/
  deadline : ∀ s log' w, s.makes = true → log.step s = some (log', w) →
    log'.scopes.length = log.scopes.length + 1 ∧
      (log'.scope log.scopes.length).deadline = log.deadlineOf s
  /-- Whatever comes later, a scope keeps its token and its deadline, and stays cancelled or done
  if it is. -/
  later : ∀ more log', Runs log more log' → ∀ i < log.scopes.length,
    log'.scope i = log.scope i ∧
      ((log.scope i).isCancelled log.tokens = true →
        (log'.scope i).isCancelled log'.tokens = true) ∧
      ((log.scope i).isDone log.tokens log.now = true →
        (log'.scope i).isDone log'.tokens log'.now = true)
  /-- A scope that is done at some time is done at all later ones, and so are the scopes that were
  derived from it. -/
  done : ∀ i j, Derives steps i j → ∀ now now', now ≤ now' →
    (log.scope i).isDone log.tokens now = true → (log.scope j).isDone log.tokens now' = true

/-- Cancelling a scope reaches the scopes that have its token or one that descends from it. -/
theorem Tree.isCancelled_cancel_iff (h : Tree steps log) {i k : Nat}
    (hi : i < log.scopes.length) (hk : k < log.scopes.length) :
    (log.scope k).isCancelled (log.tokens.cancel (log.scope i).token) = true ↔
      (log.scope k).isCancelled log.tokens = true ∨ Reaches steps i k := by
  rw [h.reaches_iff hi hk, Scope.isCancelled, Tokens.isCancelled_cancel, Bool.or_eq_true,
    List.isSuffixOf_iff_suffix, or_comm]
  rfl

/-- What is derived from a scope by taking children and clones has a token under its own, and its
deadline. -/
theorem Tree.of_derives (h : Tree steps log) {i j : Nat} (hderives : Derives steps i j) :
    (log.scope i).token <:+ (log.scope j).token ∧
      (log.scope j).deadline = (log.scope i).deadline := by
  induction hderives with
  | refl => exact ⟨List.suffix_refl _, rfl⟩
  | tail _ hlast ih =>
    rcases hlast with hbegets | hclone
    · obtain ⟨-, n, heq⟩ := h.stems _ _ hbegets
      rw [heq]
      exact ⟨ih.1.trans (List.suffix_cons ..), ih.2⟩
    · obtain ⟨-, heq⟩ := h.stems _ _ hclone
      rw [heq]
      exact ih

/-- It is done when the scope is, and at all later times. -/
theorem Tree.isDone_of_derives (h : Tree steps log) {i j : Nat} (hderives : Derives steps i j)
    {now now' : Nat} (hnow : now ≤ now') (hdone : (log.scope i).isDone log.tokens now = true) :
    (log.scope j).isDone log.tokens now' = true := by
  obtain ⟨hsuffix, hdeadline⟩ := h.of_derives hderives
  rw [Scope.isDone_iff] at hdone ⊢
  rw [hdeadline]
  refine hdone.imp (fun hcancelled => ?_) fun ⟨d, hd, hle⟩ => ⟨d, hd, hle.trans hnow⟩
  obtain ⟨c, hc, hreaches⟩ := Tokens.isCancelled_iff.1 hcancelled
  exact Tokens.isCancelled_iff.2 ⟨c, hc, hreaches.trans hsuffix⟩

/-- A child reaches neither its parent nor another child of its parent. -/
theorem Tree.not_reaches_of_begets (h : Tree steps log) {i j : Nat} (hj : Begets steps i j) :
    ¬ Reaches steps j i ∧ ∀ k, Begets steps i k → k ≠ j → ¬ Reaches steps j k := by
  obtain ⟨-, n, htoken⟩ := h.token_of_begets hj
  constructor
  · intro hreaches
    have hlength := (h.suffix_of_reaches hreaches).length_le
    rw [htoken, List.length_cons] at hlength
    omega
  · -- the tokens of two children are equally long, so they would be the same
    intro k hk hne hreaches
    obtain ⟨-, m, htoken'⟩ := h.token_of_begets hk
    have hsame := (h.suffix_of_reaches hreaches).eq_of_length (by rw [htoken, htoken']; rfl)
    exact hne (h.apart k j _ _ hk hj rfl rfl (by rw [hsame]))

/-- A scope is cancelled just in case that was asked for on a scope that reaches it. -/
theorem Told.isCancelled_iff (h : Told steps log) (htree : Tree steps log) {i : Nat}
    (hi : i < log.scopes.length) :
    (log.scope i).isCancelled log.tokens = true ↔ ∃ j, Cancels steps j ∧ Reaches steps j i := by
  rw [Scope.isCancelled, Tokens.isCancelled_iff]
  constructor
  · rintro ⟨t, ht, hsuffix⟩
    obtain ⟨j, hj, rfl⟩ := (h.cancelled t).1 ht
    exact ⟨j, hj, (htree.reaches_iff (h.there j hj) hi).2 hsuffix⟩
  · rintro ⟨j, hj, hreaches⟩
    exact ⟨_, (h.cancelled _).2 ⟨j, hj, rfl⟩, htree.suffix_of_reaches hreaches⟩

/-- No token that begins with the next number has been cancelled. -/
theorem Told.next_notMem (h : Told steps log) (htree : Tree steps log) (t : Token) :
    log.tokens.next :: t ∉ log.tokens.cancelled := by
  intro hmem
  obtain ⟨j, hj, htoken⟩ := (h.cancelled _).1 hmem
  have hissued := (htree.issued j (h.there j hj)).2
  rw [htoken] at hissued
  exact Nat.lt_irrefl _ (hissued _ List.mem_cons_self)

/-- A child is born cancelled just in case its parent is cancelled. -/
theorem Told.isCancelled_child (h : Told steps log) (htree : Tree steps log) (s : Scope) :
    (Scope.child log.tokens s).1.isCancelled (Scope.child log.tokens s).2 =
      s.isCancelled log.tokens := by
  refine Bool.eq_iff_iff.2 ⟨fun hcancelled => ?_, fun hcancelled => ?_⟩
  · obtain ⟨c, hc, hsuffix⟩ := Tokens.isCancelled_iff.1 hcancelled
    rcases List.suffix_cons_iff.1 hsuffix with rfl | hsuffix
    · exact absurd hc (h.next_notMem htree _)
    · exact Tokens.isCancelled_iff.2 ⟨c, hc, hsuffix⟩
  · exact Tokens.isCancelled_cons hcancelled _

/-- An operation that makes a scope gives it its deadline. -/
theorem deadline_of_step {st : Step} {w : Option Waited} (hmakes : st.makes = true)
    (does : log.step st = some (log', w)) :
    log'.scopes.length = log.scopes.length + 1 ∧
      (log'.scope log.scopes.length).deadline = log.deadlineOf st := by
  cases st with
  | background | clone | fromToken | signals =>
    obtain ⟨rfl, -⟩ := Prod.mk.inj (Option.some.inj does)
    exact ⟨List.length_append .., congrArg Scope.deadline scope_add_last⟩
  | child i =>
    obtain ⟨rfl, -⟩ := Prod.mk.inj (Option.some.inj does)
    refine ⟨List.length_append .., ?_⟩
    rw [scope_add_last]
    rfl
  | timeout d =>
    obtain rfl := eq_of_step_timeout does
    exact ⟨List.length_append .., congrArg Scope.deadline scope_add_last⟩
  | cancel | advance | signal | wait => cases hmakes

/-- **The law of cancellation.**  Of the scopes that any row of operations makes exactly those are
cancelled that are reached by a cancellation that was asked for, wherever in the row that was: on a
scope with the same token, or with the token of an ancestor.  One cancellation more changes exactly
the scopes that it reaches; a child is born as cancelled as its parent is; nothing is ever restored;
deadlines are fixed; and what is derived from a scope by taking children and clones is done when
that scope is. -/
theorem cancellation_lawful (h : Runs {} steps log) : Lawful steps log := by
  obtain ⟨htree, htold⟩ := h.tree
  constructor
  case possible => exact fun s => step_eq_none_iff
  case cancelled_iff => exact fun i => htold.isCancelled_iff htree
  case cancel =>
    intro i hi log' w does k hk
    obtain ⟨rfl, -⟩ := Prod.mk.inj (Option.some.inj does)
    exact htree.isCancelled_cancel_iff hi hk
  case child_alone => exact fun i j => htree.not_reaches_of_begets
  case born =>
    intro i hi log' w does
    obtain ⟨rfl, -⟩ := Prod.mk.inj (Option.some.inj does)
    rw [scope_add_last]
    exact htold.isCancelled_child htree _
  case deadline => exact fun s log' w => deadline_of_step
  case later =>
    intro more log' hmore i hi
    have hlater := Later.of_runs hmore
    rw [hlater.scope_eq hi]
    exact ⟨rfl, hlater.isCancelled, hlater.isDone⟩
  case done => exact fun i j hderives now now' => htree.isDone_of_derives hderives

/-- A scope with a timeout, a child of it, a scope from the child's token and a child of that; the
third is cancelled, and then a child of the fourth is made.  The cancellation reaches all but the
first, also the child that was made after it. -/
theorem cancellation_lawful_late_child :
    ∃ log, Runs {} [.timeout 5, .child 0, .fromToken 1, .child 2, .cancel 2, .child 3] log ∧
      (log.scope 1).isCancelled log.tokens = true ∧
      (log.scope 4).isCancelled log.tokens = true ∧
      (log.scope 0).isCancelled log.tokens = false := by
  let steps : List Step := [.timeout 5, .child 0, .fromToken 1, .child 2, .cancel 2, .child 3]
  have hlog : Runs {} steps _ :=
    .snoc (.snoc (.snoc (.snoc (.snoc (.snoc .nil (by decide) rfl) (by decide) rfl) (by decide) rfl)
      (by decide) rfl) (by decide) rfl) (by decide) rfl
  have hcopies : Copies steps 1 2 := .inr rfl
  have hbegets : Begets steps 2 3 := rfl
  have hbegets' : Begets steps 3 4 := rfl
  have hasked : Cancels steps 2 := .inl (by decide)
  refine ⟨_, hlog, ?_, ?_, by decide⟩
  · exact ((cancellation_lawful hlog).cancelled_iff 1 (by decide)).2
      ⟨2, hasked, .single (.inr (.inl hcopies))⟩
  · exact ((cancellation_lawful hlog).cancelled_iff 4 (by decide)).2
      ⟨2, hasked, (ReflTransGen.single (.inr (.inr hbegets))).tail (.inr (.inr hbegets'))⟩

end ScopeLog

end ServiceHost
