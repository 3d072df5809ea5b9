import Mathlib.Data.List.Basic
import ServiceHost.Http.Cors
import ServiceHost.Proofs.Fallible
/-!
What cross-origin options make of requests and responses.

`CorsOptions.policy_eq_ok_iff` says which options give a policy, and which one.  A policy cannot be
applied exactly when it goes with credentials and its only method is the star
(`CorsOptions.isUsable_iff`).  Under a policy, a response carries the header fields that the policy
grants to the request.  Where it grants none, what the handler has put there stays
(`CorsPolicy.granted_amend`), but for an answer to OPTIONS, which is the policy's own
(`CorsPolicy.granted_options`).
-/

namespace ServiceHost

/-- The values of a name in their order. -/
def Headers.values (h : Headers) (name : String) : List String :=
  (h.filter (·.1 == name)).map (·.2)

namespace Headers

theorem values_nil (name : String) : values [] name = [] :=
  rfl

theorem values_append (h h' : Headers) (name : String) :
    (h ++ h').values name = h.values name ++ h'.values name := by
  unfold values
  rw [List.filter_append, List.map_append]

theorem values_cons (other value : String) (h : Headers) (name : String) :
    values ((other, value) :: h) name =
      if other = name then value :: h.values name else h.values name := by
  unfold values
  rw [List.filter_cons]
  by_cases hsame : other = name <;> simp [hsame]

theorem values_remove_self (h : Headers) (name : String) : (h.remove name).values name = [] := by
  simp [values, remove]

theorem values_remove_of_ne {name other : String} (hne : other ≠ name) (h : Headers) :
    (h.remove other).values name = h.values name := by
  unfold values remove
  rw [List.filter_filter]
  congr 2
  funext field
  by_cases hsame : field.1 = name
  · simp [hsame, Ne.symm hne]
  · simp [hsame]

theorem values_set_self (h : Headers) (name value : String) :
    (h.set name value).values name = [value] := by
  rw [set, values_append, values_remove_self, values_cons, if_pos rfl]
  rfl

theorem values_set_of_ne {name other : String} (hne : other ≠ name) (h : Headers) (value : String) :
    (h.set other value).values name = h.values name := by
  rw [set, values_append, values_remove_of_ne hne, values_cons, if_neg hne, values_nil,
    List.append_nil]

theorem values_addNew_of_ne {name other : String} (hne : other ≠ name) (h : Headers)
    (value : Option String) : (h.addNew other value).values name = h.values name := by
  cases value with
  | none => rfl
  | some value =>
    rw [addNew]
    split
    · rfl
    · rw [values_append, values_cons, if_neg hne, values_nil, List.append_nil]

end Headers

namespace Http

/-! ### From options to a policy -/

/-- Names are accepted together, and none is lost. -/
theorem checkAll_eq_ok_iff {check : String → Bool} {normalise : List Char → List Char}
    {fault : String → CorsFault} {names names' : List String} :
    checkAll check normalise fault names = .ok names' ↔
      (∀ s ∈ names, check s = true) ∧
        names' = names.map fun s => String.ofList (normalise s.toList) := by
  induction names generalizing names' with
  | nil =>
    rw [checkAll, Except.ok.injEq, eq_comm]
    simp
  | cons s rest ih =>
    rw [checkAll, List.forall_mem_cons, List.map_cons]
    by_cases hs : check s
    · rw [if_pos hs, Except.map_eq_ok_iff]
      constructor
      · rintro ⟨l, hl, rfl⟩
        obtain ⟨hall, rfl⟩ := ih.1 hl
        exact ⟨⟨hs, hall⟩, rfl⟩
      · rintro ⟨⟨-, hall⟩, rfl⟩
        exact ⟨_, ih.2 ⟨hall, rfl⟩, rfl⟩
    · rw [if_neg hs]
      simp [hs]

namespace CorsOptions

variable {o : CorsOptions} {p : CorsPolicy}

/-- Reads one of the two lists of names that a star opens. -/
def readAllowed (check : String → Bool) (normalise : List Char → List Char)
    (fault : String → CorsFault) (names : List String) : Except CorsFault Allowed :=
  if names.contains "*" then .ok .any else (checkAll check normalise fault names).map .only

/-- What a list of names allows: everything if there is a star in it, else these names. -/
def allowed (names : List String) (normalise : List Char → List Char) : Allowed :=
  if "*" ∈ names then .any else .only (names.map fun s => String.ofList (normalise s.toList))

theorem readAllowed_eq_ok_iff {check : String → Bool} {normalise : List Char → List Char}
    {fault : String → CorsFault} {names : List String} {a : Allowed} :
    readAllowed check normalise fault names = .ok a ↔
      ("*" ∈ names ∨ ∀ s ∈ names, check s = true) ∧ a = allowed names normalise := by
  unfold readAllowed allowed
  by_cases hstar : "*" ∈ names
  · simp only [List.contains_iff_mem, hstar, if_true, Except.ok.injEq, true_or, true_and]
    exact eq_comm
  · simp only [List.contains_iff_mem, hstar, if_false, false_or]
    constructor
    · intro h
      obtain ⟨l, hl, rfl⟩ := Except.map_eq_ok_iff.1 h
      obtain ⟨hall, rfl⟩ := checkAll_eq_ok_iff.1 hl
      exact ⟨hall, rfl⟩
    · rintro ⟨hall, rfl⟩
      rw [checkAll_eq_ok_iff.2 ⟨hall, rfl⟩]
      rfl

/-- The policy, with its three lists read one after the other. -/
theorem policy_eq (o : CorsOptions) : o.policy =
    if o.allowCredentials && o.hasWildcard then .error .credentialsWithWildcard
    else
      (readAllowed Headers.isValue id .badOrigin o.allowedOrigins).bind fun origins =>
        (checkAll isToken Text.upperAscii .badMethod o.allowedMethods).bind fun methods =>
          (readAllowed isFieldName Text.lowerAscii .badHeader o.allowedHeaders).bind fun headers =>
            .ok { origins := origins, methods := methods, headers := headers
                  credentials := o.allowCredentials, maxAge := o.maxAgeSecs } := by
  unfold policy readAllowed
  by_cases horigins : o.allowedOrigins.contains "*" <;>
    by_cases hheaders : o.allowedHeaders.contains "*" <;>
    simp only [horigins, hheaders, if_true, if_false, Bool.false_eq_true] <;> rfl

/-- What is asked of the names in some options.  Where a star allows all of them, the others are not
looked at. -/
structure WellFormed (o : CorsOptions) : Prop where
  origins : "*" ∈ o.allowedOrigins ∨ ∀ s ∈ o.allowedOrigins, Headers.isValue s = true
  methods : ∀ s ∈ o.allowedMethods, isToken s = true
  headers : "*" ∈ o.allowedHeaders ∨ ∀ s ∈ o.allowedHeaders, isFieldName s = true

theorem hasWildcard_iff : o.hasWildcard = true ↔ "*" ∈ o.allowedOrigins ∨ "*" ∈ o.allowedHeaders := by
  unfold hasWildcard
  rw [Bool.or_eq_true, List.contains_iff_mem, List.contains_iff_mem]

/-- Options that are refused for their credentials are refused for nothing else. -/
theorem policy_of_wildcard (hcredentials : o.allowCredentials = true)
    (hstar : "*" ∈ o.allowedOrigins ∨ "*" ∈ o.allowedHeaders) :
    o.policy = .error .credentialsWithWildcard := by
  unfold policy
  rw [hcredentials, hasWildcard_iff.2 hstar]
  rfl

/-- **Which options give a policy.**  Credentials must not meet a star among the origins or the
header fields, and the names must be well formed; the policy then holds what the options say. -/
theorem policy_eq_ok_iff : o.policy = .ok p ↔
    ¬ (o.allowCredentials = true ∧ ("*" ∈ o.allowedOrigins ∨ "*" ∈ o.allowedHeaders)) ∧
      o.WellFormed ∧
      p = { origins := allowed o.allowedOrigins id
            methods := o.allowedMethods.map fun s => String.ofList (Text.upperAscii s.toList)
            headers := allowed o.allowedHeaders Text.lowerAscii
            credentials := o.allowCredentials
            maxAge := o.maxAgeSecs } := by
  rw [← hasWildcard_iff, ← Bool.and_eq_true, policy_eq]
  split
  next hrefused => simp [hrefused]
  next hrefused =>
    rw [and_iff_right hrefused]
    constructor
    · intro h
      obtain ⟨origins, horigins, h⟩ := Except.bind_eq_ok_iff.1 h
      obtain ⟨methods, hmethods, h⟩ := Except.bind_eq_ok_iff.1 h
      obtain ⟨headers, hheaders, h⟩ := Except.bind_eq_ok_iff.1 h
      obtain ⟨hwell₁, rfl⟩ := readAllowed_eq_ok_iff.1 horigins
      obtain ⟨hwell₂, rfl⟩ := checkAll_eq_ok_iff.1 hmethods
      obtain ⟨hwell₃, rfl⟩ := readAllowed_eq_ok_iff.1 hheaders
      exact ⟨⟨hwell₁, hwell₂, hwell₃⟩, (Except.ok.inj h).symm⟩
    · rintro ⟨⟨horigins, hmethods, hheaders⟩, rfl⟩
      rw [readAllowed_eq_ok_iff.2 ⟨horigins, rfl⟩, checkAll_eq_ok_iff.2 ⟨hmethods, rfl⟩,
        readAllowed_eq_ok_iff.2 ⟨hheaders, rfl⟩]
      rfl

/-! ### Policies that cannot be applied -/

/-- The upper case of nothing else is the star. -/
theorem toUpper_eq_star_iff {c : Char} : c.toUpper = '*' ↔ c = '*' := by
  constructor
  · intro h
    unfold Char.toUpper at h
    split at h
    next hlower =>
      obtain ⟨hlow, hhigh⟩ := hlower
      rw [UInt32.le_iff_toNat_le] at hlow hhigh
      have hval := congrArg (fun d : Char => d.val.toNat) h
      simp only [UInt32.toNat_add] at hval
      change (c.val.toNat + 4294967264) % 4294967296 = 42 at hval
      change 97 ≤ c.val.toNat at hlow
      change c.val.toNat ≤ 122 at hhigh
      omega
    next => exact h
  · rintro rfl
    rfl

/-- The joined methods of some options are a star only if the star is the one method. -/
theorem methodList_eq_star_iff (h : o.policy = .ok p) :
    p.methodList = "*" ↔ o.allowedMethods = ["*"] := by
  obtain ⟨-, -, rfl⟩ := policy_eq_ok_iff.1 h
  unfold CorsPolicy.methodList
  rcases o.allowedMethods with - | ⟨m, - | ⟨n, rest⟩⟩
  · refine ⟨fun h => ?_, fun h => by cases h⟩
    have hempty : "" ≠ "*" := by decide
    exact absurd h hempty
  · rw [List.map_singleton, String.intercalate_singleton, List.cons.injEq, and_iff_left rfl,
      ← String.toList_inj, ← String.toList_inj, String.toList_ofList]
    show m.toList.map Char.toUpper = ['*'] ↔ m.toList = ['*']
    rw [List.map_eq_singleton_iff]
    constructor
    · rintro ⟨c, hm, hc⟩
      rw [hm, toUpper_eq_star_iff.1 hc]
    · intro hm
      exact ⟨'*', hm, rfl⟩
  · -- two methods are joined by a comma, which the star does not hold
    refine ⟨fun h => ?_, fun h => by cases h⟩
    have hcomma : ',' ∈ ("*" : String).toList := by
      rw [← h, List.map_cons, List.map_cons, String.intercalate_cons_cons, String.toList_append,
        String.toList_append]
      exact List.mem_append_left _ (List.mem_append_right _ (by decide))
    exact absurd hcomma (by decide)

theorem credentials_eq (h : o.policy = .ok p) : p.credentials = o.allowCredentials := by
  obtain ⟨-, -, rfl⟩ := policy_eq_ok_iff.1 h
  rfl

/-- **When a policy cannot be applied.**  It goes with credentials, and its one method is the
star. -/
theorem isUsable_iff (h : o.policy = .ok p) :
    p.isUsable = false ↔ o.allowCredentials = true ∧ o.allowedMethods = ["*"] := by
  unfold CorsPolicy.isUsable
  rw [Bool.not_eq_false', Bool.and_eq_true, beq_iff_eq, methodList_eq_star_iff h, credentials_eq h]

end CorsOptions

/-! ### What a response carries -/

/-- The name of the field with the origin that is granted access. -/
def allowOrigin : String :=
  "access-control-allow-origin"

/-- The name of the field that lets credentials be used. -/
def allowCredentials : String :=
  "access-control-allow-credentials"

/-- Fields that grant nothing. -/
def Grantless (h : Headers) : Prop :=
  h.values allowOrigin = [] ∧ h.values allowCredentials = []

namespace CorsPolicy

variable (p : CorsPolicy) (r : Request)

/-- What is said about methods, header fields and the age of an answer grants nothing. -/
theorem grantless_preflightHeaders : Grantless p.preflightHeaders := by
  unfold preflightHeaders
  cases p.methods.isEmpty <;> cases p.headerList <;> cases p.maxAge <;> exact ⟨rfl, rfl⟩

/-- Fields that grant what the policy grants, and what stood in others besides. -/
structure Granted (own h : Headers) : Prop where
  origin : h.values allowOrigin = (p.grantedOrigin r).elim (own.values allowOrigin) ([·])
  credentials : h.values allowCredentials =
    if p.credentials then ["true"] else own.values allowCredentials

variable {p r} in
/-- Where nothing was granted besides, there is what the policy grants alone. -/
theorem Granted.of_grantless {own h : Headers} (hgranted : p.Granted r own h)
    (hown : Grantless own) : p.Granted r [] h where
  origin := by
    rw [hgranted.origin, hown.1]
    rfl
  credentials := by
    rw [hgranted.credentials, hown.2]
    rfl

theorem granted_commonHeaders : p.Granted r [] (p.commonHeaders r) := by
  unfold commonHeaders
  constructor <;> cases p.grantedOrigin r <;> cases p.credentials <;> rfl

/-- The last field of a name is what the name has afterwards. -/
theorem values_amend {name : String} (hname : name ≠ "vary") (h fields : Headers) :
    (amend h fields).values name = (fields.values name).getLast?.elim (h.values name) ([·]) := by
  induction fields generalizing h with
  | nil => rfl
  | cons field rest ih =>
    obtain ⟨other, value⟩ := field
    show (amend (if other = "vary" then h ++ [(other, value)] else h.set other value) rest).values
      name = _
    rw [ih, Headers.values_cons]
    by_cases hsame : other = name
    · subst hsame
      rw [if_neg hname, if_pos rfl, Headers.values_set_self, List.getLast?_cons]
      cases (Headers.values rest other).getLast? <;> rfl
    · rw [if_neg hsame]
      congr 1
      split
      · rw [Headers.values_append, Headers.values_cons, if_neg hsame, Headers.values_nil,
          List.append_nil]
      · exact Headers.values_set_of_ne hsame h value

/-- Amended fields grant what the policy grants, or else what they did before. -/
theorem granted_amend (h : Headers) : p.Granted r h (amend h (p.commonHeaders r)) := by
  have hcommon := p.granted_commonHeaders r
  constructor
  · rw [values_amend (by decide), hcommon.origin]
    cases p.grantedOrigin r <;> rfl
  · rw [values_amend (by decide), hcommon.credentials]
    cases p.credentials <;> rfl

end CorsPolicy

/-- What an endpoint adds where it sends a response grants nothing. -/
theorem Endpoint.values_complete {name : String} (hallow : name ≠ "allow")
    (hlength : name ≠ "content-length") (e : Endpoint) (method : String) (x : Response) :
    (e.complete method x).values name = x.headers.values name := by
  unfold complete
  rw [Headers.values_addNew_of_ne hlength.symm, Headers.values_addNew_of_ne hallow.symm]

/-- **What a response to OPTIONS grants**: what the policy does. -/
theorem CorsPolicy.granted_options {p : CorsPolicy} {r : Request} {handle : Handler}
    {resp : Response} (hmethod : r.method = "OPTIONS") (h : p.layer handle r = some resp) :
    p.Granted r [] resp.headers := by
  unfold layer at h
  rw [if_pos hmethod] at h
  obtain rfl := Option.some.inj h
  have hcommon := p.granted_commonHeaders r
  have hnone := p.grantless_preflightHeaders
  constructor
  · rw [Headers.values_append, hnone.1, List.append_nil, hcommon.origin]
  · rw [Headers.values_append, hnone.2, List.append_nil, hcommon.credentials]

/-- A policy amends the responses to all other requests. -/
theorem CorsPolicy.layer_eq {p : CorsPolicy} {r : Request} (hmethod : r.method ≠ "OPTIONS")
    (handle : Handler) : p.layer handle r =
      (handle r).map fun x => { x with headers := amend x.headers (p.commonHeaders r) } := by
  unfold layer
  rw [if_neg hmethod]

/-- The origin that some options grant to a request: the star if it is among those allowed, and else
the request's first origin if that one is. -/
def CorsOptions.grants (o : CorsOptions) (r : Request) : Option String :=
  if "*" ∈ o.allowedOrigins then some "*"
  else (r.headers.first "origin").filter (· ∈ o.allowedOrigins)

theorem CorsOptions.grantedOrigin_eq {o : CorsOptions} {p : CorsPolicy} (h : o.policy = .ok p)
    (r : Request) : p.grantedOrigin r = o.grants r := by
  obtain ⟨-, -, rfl⟩ := policy_eq_ok_iff.1 h
  have hsame : (o.allowedOrigins.map fun s => String.ofList (id s.toList)) = o.allowedOrigins := by
    simp
  unfold CorsPolicy.grantedOrigin grants
  simp only [allowed, hsame]
  split_ifs
  · rfl
  · simp only [List.contains_eq_mem]

/-- The fields in which a policy alone grants what its options do. -/
theorem CorsPolicy.Granted.values_eq {o : CorsOptions} {p : CorsPolicy} {r : Request} {h : Headers}
    (hgranted : p.Granted r [] h) (hpolicy : o.policy = .ok p) :
    h.values allowOrigin = (o.grants r).toList ∧
      h.values allowCredentials = if o.allowCredentials then ["true"] else [] := by
  constructor
  · rw [hgranted.origin, CorsOptions.grantedOrigin_eq hpolicy]
    cases o.grants r <;> rfl
  · rw [hgranted.credentials, CorsOptions.credentials_eq hpolicy]
    rfl

/-- Options that give a policy do not grant access to every origin together with credentials. -/
theorem CorsOptions.grants_ne_star {o : CorsOptions} {p : CorsPolicy} (h : o.policy = .ok p)
    (hcredentials : o.allowCredentials = true) (r : Request) : o.grants r ≠ some "*" := by
  obtain ⟨hstar, -, -⟩ := policy_eq_ok_iff.1 h
  have hnot : "*" ∉ o.allowedOrigins := fun h => hstar ⟨hcredentials, .inl h⟩
  intro hgrants
  rw [grants, if_neg hnot, Option.filter_eq_some_iff] at hgrants
  exact hnot (of_decide_eq_true hgrants.2)

end Http

end ServiceHost
