import ServiceHost.Address
import ServiceHost.Proofs.Text
/-!
Three readings of an address, and how they fit together.

The text to listen on is read again as itself, is called at the same place and names the same port
as the address that it was made from, and the text that is called names this port as well
(`readings_agree`).  Bare IPv6 addresses that begin with a colon are not kept: they are completed
like a port without a host (`kept_iff_no_leading_colon`).
-/

namespace ServiceHost.Address

open Text

variable {a b host port : List Char}

/-! ### Parts and their texts -/

/-- The text that is cut into the parts: a port stands behind a colon. -/
def Parts.text (p : Parts) : List Char :=
  match p.port with
  | some port => p.host ++ ':' :: port
  | none => p.host

/-- Is the last colon behind this host followed by a port?  A host with colons of its own needs a
closing bracket for that. -/
def TakesPort (host : List Char) : Prop :=
  ':' ∈ host → host.getLast? = some ']'

theorem split_of_notMem (h : ':' ∉ a) : split a = ⟨a, none⟩ := by
  rw [split, splitLast_eq_none_iff.2 h]

theorem isBare_iff :
    (host.contains ':' && host.getLast? != some ']') = true ↔ ¬TakesPort host := by
  simp [TakesPort]

theorem split_append (hport : ':' ∉ port) (h : TakesPort host) :
    split (host ++ ':' :: port) = ⟨host, some port⟩ := by
  simp only [split, splitLast_append hport]
  exact if_neg fun hbare => isBare_iff.1 hbare h

theorem split_append_bare (hport : ':' ∉ port) (h : ¬TakesPort host) :
    split (host ++ ':' :: port) = ⟨host ++ ':' :: port, none⟩ := by
  simp only [split, splitLast_append hport]
  exact if_pos (isBare_iff.2 h)

/-- An address is all host, or it is a host, a colon and a port. -/
theorem split_cases (a : List Char) : split a = ⟨a, none⟩ ∨
    ∃ host port, a = host ++ ':' :: port ∧ ':' ∉ port ∧ TakesPort host ∧
      split a = ⟨host, some port⟩ := by
  cases hcut : splitLast ':' a with
  | none => exact .inl (split_of_notMem (splitLast_eq_none_iff.1 hcut))
  | some pieces =>
    obtain ⟨host, port⟩ := pieces
    obtain ⟨rfl, hport⟩ := splitLast_eq_some_iff.1 hcut
    by_cases h : TakesPort host
    · exact .inr ⟨host, port, rfl, hport, h, split_append hport h⟩
    · exact .inl (split_append_bare hport h)

/-- What stands before a first colon does not decide what the port is. -/
theorem takesPort_append (ha : ':' ∉ a) : TakesPort (a ++ host) ↔ TakesPort host := by
  have hmem : ':' ∈ a ++ host ↔ ':' ∈ host := by simp [ha]
  unfold TakesPort
  rw [hmem]
  refine imp_congr_right fun h => ?_
  rw [List.getLast?_append_of_ne_nil a (List.ne_nil_of_mem h)]

theorem port_split_append (ha : ':' ∉ a) (hb : ':' ∈ b) :
    (split (a ++ b)).port = (split b).port := by
  cases hcut : splitLast ':' b with
  | none => exact absurd hb (splitLast_eq_none_iff.1 hcut)
  | some pieces =>
    obtain ⟨host, port⟩ := pieces
    obtain ⟨rfl, hport⟩ := splitLast_eq_some_iff.1 hcut
    rw [← List.append_assoc]
    by_cases h : TakesPort host
    · rw [split_append hport h, split_append hport ((takesPort_append ha).2 h)]
    · rw [split_append_bare hport h, split_append_bare hport (mt (takesPort_append ha).1 h)]

/-! ### Listening -/

theorem bindChars_of_head? (h : (trim a).head? = some ':') :
    bindChars a = "0.0.0.0".toList ++ trim a :=
  if_pos h

theorem bindChars_of_head?_ne (h : (trim a).head? ≠ some ':') : bindChars a = trim a :=
  if_neg h

theorem trim_bindChars (a : List Char) : trim (bindChars a) = bindChars a := by
  by_cases h : (trim a).head? = some ':'
  · rw [bindChars_of_head? h, trim_eq_self_iff]
    have hne : trim a ≠ [] := by
      intro hnil
      rw [hnil] at h
      cases h
    refine ⟨by simp [isBlank], ?_⟩
    rw [List.getLast?_append_of_ne_nil _ hne]
    exact (trim_eq_self_iff.1 (trim_trim a)).2
  · rw [bindChars_of_head?_ne h, trim_trim]

theorem head?_bindChars_ne (a : List Char) : (bindChars a).head? ≠ some ':' := by
  by_cases h : (trim a).head? = some ':'
  · rw [bindChars_of_head? h]
    simp
  · rw [bindChars_of_head?_ne h]
    exact h

theorem bindChars_bindChars (a : List Char) : bindChars (bindChars a) = bindChars a := by
  rw [bindChars_of_head?_ne (by rw [trim_bindChars]; exact head?_bindChars_ne a), trim_bindChars]

/-- The host that is put before a port leaves the port as it is. -/
theorem port_split_bindChars (a : List Char) :
    (split (bindChars a)).port = (split (trim a)).port := by
  by_cases h : (trim a).head? = some ':'
  · rw [bindChars_of_head? h]
    exact port_split_append (by decide) (List.mem_of_mem_head? h)
  · rw [bindChars_of_head?_ne h]

theorem portOfChars_of_trim (h : trim b = b) (hport : (split b).port = (split (trim a)).port) :
    portOfChars b = portOfChars a := by
  rw [portOfChars, h, hport, portOfChars]

/-! ### Calling -/

/-- The parts with the host at which this machine reaches them. -/
def Parts.dialled (p : Parts) : Parts :=
  { p with host := if wildcardHosts.contains p.host then "127.0.0.1".toList else p.host }

theorem dialChars_eq (a : List Char) :
    dialChars a = "http://".toList ++ (split (bindChars a)).dialled.text := by
  cases h : (split (bindChars a)).port with
  | none => simp only [dialChars, Parts.dialled, Parts.text, h, List.contains_iff_mem]
  | some port =>
    simp only [dialChars, Parts.dialled, Parts.text, h, List.contains_iff_mem, List.append_assoc]

theorem dialled_of_mem {p : Parts} (h : p.host ∈ wildcardHosts) :
    p.dialled = ⟨"127.0.0.1".toList, p.port⟩ := by
  rw [Parts.dialled, if_pos (List.contains_iff_mem.2 h)]

theorem dialled_of_notMem {p : Parts} (h : p.host ∉ wildcardHosts) : p.dialled = p := by
  rw [Parts.dialled, if_neg (mt List.contains_iff_mem.1 h)]

theorem text_split (b : List Char) : (split b).text = b := by
  obtain h | ⟨host, port, hb, -, -, h⟩ := split_cases b
  · rw [h]
    rfl
  · rw [h, hb]
    rfl

/-- The text that is called is cut where the address was cut. -/
theorem split_dialled (b : List Char) : split (split b).dialled.text = (split b).dialled := by
  by_cases hwild : (split b).host ∈ wildcardHosts
  · rw [dialled_of_mem hwild]
    obtain h | ⟨host, port, -, hport, -, h⟩ := split_cases b
    · rw [h]
      show split "127.0.0.1".toList = _
      exact split_of_notMem (by decide)
    · have htakes : TakesPort "127.0.0.1".toList := fun hcolon => absurd hcolon (by decide)
      rw [h]
      exact split_append hport htakes
  · rw [dialled_of_notMem hwild, text_split]

theorem trim_dialled (hb : trim b = b) : trim (split b).dialled.text = (split b).dialled.text := by
  by_cases hwild : (split b).host ∈ wildcardHosts
  · rw [dialled_of_mem hwild]
    obtain h | ⟨host, port, rfl, -, -, h⟩ := split_cases b
    · rw [h]
      show trim "127.0.0.1".toList = "127.0.0.1".toList
      decide
    · -- the text begins with a digit and ends as the address does, which is trimmed
      have hend := (trim_eq_self_iff.1 hb).2
      rw [List.getLast?_append_of_ne_nil _ (List.cons_ne_nil _ _)] at hend
      rw [h]
      show trim ("127.0.0.1".toList ++ ':' :: port) = "127.0.0.1".toList ++ ':' :: port
      refine trim_eq_self_iff.2 ⟨by simp [isBlank], ?_⟩
      rw [List.getLast?_append_of_ne_nil _ (List.cons_ne_nil _ _)]
      exact hend
  · rw [dialled_of_notMem hwild, text_split]
    exact hb

theorem portOfChars_dialled (a : List Char) :
    portOfChars (split (bindChars a)).dialled.text = portOfChars a := by
  apply portOfChars_of_trim (trim_dialled (trim_bindChars a))
  rw [split_dialled, ← port_split_bindChars]
  rfl

/-- Two colons in a row at the beginning are never the host to listen on. -/
theorem host_split_bindChars_ne (a : List Char) : (split (bindChars a)).host ≠ "::".toList := by
  intro hhost
  apply head?_bindChars_ne a
  obtain h | ⟨host, port, hb, -, -, h⟩ := split_cases (bindChars a)
  · rw [h] at hhost
    rw [show bindChars a = _ from hhost]
    rfl
  · rw [h] at hhost
    rw [hb, show host = _ from hhost]
    rfl

theorem mem_wildcardHosts_iff (hhost : host ≠ "::".toList) :
    host ∈ wildcardHosts ↔ host ∈ [[], "0.0.0.0".toList, "[::]".toList] := by
  simp only [wildcardHosts, List.mem_cons, List.not_mem_nil, or_false, hhost]

/-! ### The three readings -/

/-- **Three readings of one address.**  The text to listen on is read as itself when it is read
again.  It is called where the address is called, and it names the same port; so does the text that
is called, without its scheme.  Only an empty host and the two wildcards for all interfaces are
called as another host, and the text of the port is kept in any case. -/
theorem readings_agree (a : String) :
    bindAddress (bindAddress a) = bindAddress a ∧
    dialTarget (bindAddress a) = dialTarget a ∧
    portOf (bindAddress a) = portOf a ∧
    (∃ called, dialTarget a = "http://" ++ called ∧ portOf called = portOf a) ∧
    ∃ host port, split (bindAddress a).toList = ⟨host, port⟩ ∧
      dialTarget a = "http://" ++ String.ofList (Parts.text
        ⟨if host ∈ [[], "0.0.0.0".toList, "[::]".toList] then "127.0.0.1".toList else host,
          port⟩) := by
  have hbind : (bindAddress a).toList = bindChars a.toList := String.toList_ofList
  have hdial : dialTarget a =
      "http://" ++ String.ofList (split (bindChars a.toList)).dialled.text := by
    rw [dialTarget, dialChars_eq, String.ofList_append, String.ofList_toList]
  refine ⟨?_, ?_, ?_, ?_, ?_⟩
  · rw [bindAddress, hbind, bindChars_bindChars, bindAddress]
  · rw [dialTarget, hbind, dialChars_eq, bindChars_bindChars, ← dialChars_eq, dialTarget]
  · rw [portOf, hbind, portOf]
    exact portOfChars_of_trim (trim_bindChars _) (port_split_bindChars _)
  · refine ⟨_, hdial, ?_⟩
    rw [portOf, String.toList_ofList, portOfChars_dialled, portOf]
  · refine ⟨(split (bindChars a.toList)).host, (split (bindChars a.toList)).port,
      congrArg split hbind, ?_⟩
    simp only [hdial, Parts.dialled, List.contains_iff_mem,
      mem_wildcardHosts_iff (host_split_bindChars_ne _)]

/-! ### Bare IPv6 addresses -/

/-- A bare IPv6 address: it has two colons or more, and no brackets. -/
def IsBareV6 (t : List Char) : Prop :=
  2 ≤ t.count ':' ∧ '[' ∉ t ∧ ']' ∉ t

instance : DecidablePred IsBareV6 :=
  fun _ => inferInstanceAs (Decidable (_ ∧ _ ∧ _))

namespace IsBareV6

variable {t : List Char}

theorem split_eq (h : IsBareV6 t) : split t = ⟨t, none⟩ := by
  obtain ⟨hcolons, -, hclosing⟩ := h
  obtain h | ⟨host, port, rfl, hport, htakes, -⟩ := split_cases t
  · exact h
  · -- of two colons one is in the host, which would have to end with a bracket
    have hhost : ':' ∈ host := by
      rw [List.count_append, List.count_cons_self, List.count_eq_zero.2 hport] at hcolons
      exact List.count_pos_iff.1 (by omega)
    have hend : ']' ∈ host := List.mem_of_getLast? (htakes hhost)
    exact absurd (List.mem_append_left _ hend) hclosing

theorem notMem_wildcardHosts (h : IsBareV6 t) (hhead : t.head? ≠ some ':') :
    t ∉ wildcardHosts := by
  intro hwild
  simp only [wildcardHosts, List.mem_cons, List.not_mem_nil, or_false] at hwild
  obtain rfl | rfl | rfl | rfl := hwild
  · exact absurd h (by decide)
  · exact absurd h (by decide)
  · exact absurd h (by decide)
  · exact hhead rfl

theorem bindChars (h : IsBareV6 (trim a)) : IsBareV6 (bindChars a) := by
  by_cases hhead : (trim a).head? = some ':'
  · rw [bindChars_of_head? hhead]
    obtain ⟨hcolons, hopening, hclosing⟩ := h
    refine ⟨?_, ?_, ?_⟩
    · rw [List.count_append]
      omega
    · exact fun hmem => hopening ((List.mem_append.1 hmem).resolve_left (by decide))
    · exact fun hmem => hclosing ((List.mem_append.1 hmem).resolve_left (by decide))
  · rw [bindChars_of_head?_ne hhead]
    exact h

/-- What is listened on is called as it is. -/
theorem dialChars_eq (h : IsBareV6 (trim a)) :
    dialChars a = "http://".toList ++ Address.bindChars a := by
  rw [Address.dialChars_eq, h.bindChars.split_eq,
    dialled_of_notMem (h.bindChars.notMem_wildcardHosts (head?_bindChars_ne a))]
  rfl

end IsBareV6

/-- **Bare IPv6 addresses.**  A bare IPv6 address is a host without a port.  It is listened on and
called as it is just in case it does not begin with a colon.  One that does is completed like a port
without a host, and what is listened on and called is the completed text. -/
theorem kept_iff_no_leading_colon (a : String) (h : IsBareV6 (trim a.toList)) :
    split (trim a.toList) = ⟨trim a.toList, none⟩ ∧
    (bindAddress a = String.ofList (trim a.toList) ∧
      dialTarget a = "http://" ++ String.ofList
        (if trim a.toList = "::".toList then "127.0.0.1".toList else trim a.toList) ↔
        (trim a.toList).head? ≠ some ':') ∧
    ((trim a.toList).head? = some ':' →
      bindAddress a = "0.0.0.0" ++ String.ofList (trim a.toList) ∧
      dialTarget a = "http://0.0.0.0" ++ String.ofList (trim a.toList)) := by
  have hdial : dialTarget a = "http://" ++ bindAddress a := by
    rw [dialTarget, h.dialChars_eq, String.ofList_append, String.ofList_toList, bindAddress]
  have hcompleted (hhead : (trim a.toList).head? = some ':') :
      bindAddress a = "0.0.0.0" ++ String.ofList (trim a.toList) := by
    rw [bindAddress, bindChars_of_head? hhead, String.ofList_append, String.ofList_toList]
  refine ⟨h.split_eq, ⟨?_, ?_⟩, ?_⟩
  · rintro ⟨hbind, -⟩ hhead
    -- the completed text is longer
    have hlength := congrArg String.length (hbind.symm.trans (hcompleted hhead))
    rw [String.length_append] at hlength
    have hfront : "0.0.0.0".length = 7 := rfl
    omega
  · intro hhead
    have hbind : bindAddress a = String.ofList (trim a.toList) := by
      rw [bindAddress, bindChars_of_head?_ne hhead]
    have hwild : trim a.toList ≠ "::".toList := by
      intro heq
      rw [heq] at hhead
      exact hhead rfl
    exact ⟨hbind, by rw [hdial, hbind, if_neg hwild]⟩
  · intro hhead
    have hscheme : "http://0.0.0.0" = "http://" ++ "0.0.0.0" := rfl
    exact ⟨hcompleted hhead, by rw [hdial, hcompleted hhead, hscheme, String.append_assoc]⟩

/-- A link-local address is kept, and the address of the machine itself is completed. -/
theorem kept_iff_no_leading_colon_loopback :
    IsBareV6 (trim " fe80::1".toList) ∧ IsBareV6 (trim "::1".toList) ∧
    bindAddress " fe80::1" = "fe80::1" ∧ dialTarget " fe80::1" = "http://fe80::1" ∧
    bindAddress "::1" = "0.0.0.0::1" ∧ dialTarget "::1" = "http://0.0.0.0::1" := by
  have hlocal : IsBareV6 (trim " fe80::1".toList) := by decide
  have hloopback : IsBareV6 (trim "::1".toList) := by decide
  obtain ⟨-, hkept, -⟩ := kept_iff_no_leading_colon " fe80::1" hlocal
  obtain ⟨-, -, hcompleted⟩ := kept_iff_no_leading_colon "::1" hloopback
  obtain ⟨hbind, hdial⟩ := hkept.2 (by decide)
  exact ⟨hlocal, hloopback, hbind, hdial, hcompleted (by decide)⟩

/-- The bare address of all interfaces is neither listened on nor called as such. -/
theorem bare_wildcard_not_kept : IsBareV6 (trim "::".toList) ∧ bindAddress "::" ≠ "::" ∧
    dialTarget "::" ≠ "http://127.0.0.1" := by
  decide

end ServiceHost.Address
