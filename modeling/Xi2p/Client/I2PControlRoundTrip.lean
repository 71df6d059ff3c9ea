import Mathlib.Data.List.GetD
import Mathlib.Data.Option.Basic
import Xi2p.Client.I2PControlTexts

/-!
# I2PControl requests and responses, written and read back

Nothing is escaped when the JSON texts of `client/api/i2p_control/data.cc` are put together, an empty
string is written as `null`, and a comma follows the token even where no parameter does.

* `Form.Accepts`: the parameters that `ParseRequest` or `ParseResponse` gives back.
* `Request.restored_iff`, `Response.restored_iff`: what is read back is what was written exactly if
  the parameters are accepted, all strings are plain texts and the ID is a number.
-/

namespace I2PControl

open Json Text

variable {Double : Type} {fmt : DoubleFormat Double}

/-! ## Forms -/

/-- The kind of a key, if it is parsed at all. -/
def Form.kind : Form → ℕ → Option Kind
  | required fields, key => AssocMap.find fields key
  | each kind _, key => kind key

/-- The keys without which parsing fails. -/
def Form.needs : Form → List ℕ
  | required fields => fields.map Prod.fst
  | each _ _ => []

/-- The parameters of a method with so many keys that a reader gives back: every value fits, and
those that are looked up are there. -/
def Form.Accepts (fmt : DoubleFormat Double) (keys : ℕ) (f : Form) (params : Params Double) :
    Prop :=
  (∀ key < keys, ∀ v, params key = some v → ∃ k, f.kind key = some k ∧ k.Fits fmt v) ∧
    ∀ key ∈ f.needs, params key ≠ none

/-- The same keys have the same values. -/
def SameParams (keys : ℕ) (p q : Params Double) : Prop :=
  ∀ key < keys, Option.Rel ValueType.Same (p key) (q key)

/-- A form for keys with these names. -/
structure Form.Suits (f : Form) (traits : List (List UInt8)) : Prop where
  nodup : traits.Nodup
  key_lt : ∀ {key k}, f.kind key = some k → key < traits.length
  needs_nodup : f.needs.Nodup
  ne_token : ∀ {kind}, f = .each kind true → ∀ {key k}, kind key = some k →
    traits.getD key [] ≠ ascii "Token"

/-- The form of requests: a child `Token` is no parameter. -/
structure Form.SkipsToken (f : Form) (traits : List (List UInt8)) : Prop where
  ne_token : ∀ {key k}, f.kind key = some k → traits.getD key [] ≠ ascii "Token"
  skips : ∀ {kind skip}, f = .each kind skip → skip = true

section Suits

theorem Form.required_suits {fields : List (ℕ × Kind)} {traits : List (List UInt8)}
    (hnodup : traits.Nodup) (hfields : ∀ e ∈ fields, e.1 < traits.length)
    (hneeds : (fields.map Prod.fst).Nodup) : (Form.required fields).Suits traits where
  nodup := hnodup
  key_lt h := hfields _ (AssocMap.mem_of_find h)
  needs_nodup := hneeds
  ne_token h := by cases h

theorem Form.required_skipsToken {fields : List (ℕ × Kind)} {traits : List (List UInt8)}
    (hfields : ∀ e ∈ fields, traits.getD e.1 [] ≠ ascii "Token") :
    (Form.required fields).SkipsToken traits where
  ne_token h := hfields _ (AssocMap.mem_of_find h)
  skips h := by cases h

theorem Form.each_suits {kind : ℕ → Option Kind} {skip : Bool} {traits : List (List UInt8)}
    (hnodup : traits.Nodup) (hkind : ∀ key, traits.length ≤ key → kind key = none)
    (htoken : skip = true → ascii "Token" ∉ traits) : (Form.each kind skip).Suits traits where
  nodup := hnodup
  key_lt {key k} h := by
    by_contra hge
    have hnone := hkind key (by omega)
    rw [Form.kind, hnone] at h
    cases h
  needs_nodup := List.nodup_nil
  ne_token {kind'} h {key k} hkey heq := by
    obtain ⟨rfl, rfl⟩ : kind = kind' ∧ skip = true := by
      cases h
      exact ⟨rfl, rfl⟩
    by_cases hlt : key < traits.length
    · rw [List.getD_eq_getElem _ _ hlt] at heq
      exact htoken rfl (heq ▸ List.getElem_mem hlt)
    · have hnone := hkind key (by omega)
      rw [hnone] at hkey
      cases hkey

theorem Form.Suits.skipsToken {kind : ℕ → Option Kind} {traits : List (List UInt8)}
    (h : (Form.each kind true).Suits traits) : (Form.each kind true).SkipsToken traits where
  ne_token hkey := h.ne_token rfl hkey
  skips heq := by
    cases heq
    rfl

theorem MethodI2PControl.kind_eq_none {key : ℕ} (h : traits.length ≤ key) :
    requestKind key = none ∧ responseKind key = none := by
  have hlength : traits.length = 5 := by decide
  rw [hlength] at h
  have hnot : ∀ k ∈ [address, password, port, settingsSaved, restartNeeded], key ≠ k := by
    intro k hk heq
    have hlt : ∀ k ∈ [address, password, port, settingsSaved, restartNeeded], k < 5 := by decide
    have := hlt k hk
    omega
  simp only [List.forall_mem_cons] at hnot
  simp [requestKind, responseKind, hnot]

theorem MethodRouterInfo.kind_eq_none {key : ℕ} (h : traits.length ≤ key) :
    requestKind key = none ∧ responseKind key = none := by
  have hlength : traits.length = 20 := by decide
  have hnot {keys : List ℕ} (hkeys : ∀ k ∈ keys, k < 20) : key ∉ keys := fun hmem => by
    have := hkeys key hmem
    omega
  refine ⟨if_neg (by omega), ?_⟩
  rw [responseKind, if_neg (hnot (by decide)), if_neg (hnot (by decide)),
    if_neg (hnot (by decide)), if_neg (hnot (by decide)), if_neg (hnot (by decide))]

theorem MethodRouterManager.kind_eq_none {key : ℕ} (h : traits.length ≤ key) :
    requestKind key = none ∧ responseKind key = none := by
  have hlength : traits.length = 7 := by decide
  have hfind : findUpdates = 0 := rfl
  have hupdate : update = 6 := rfl
  refine ⟨if_neg (by omega), ?_⟩
  rw [responseKind, if_neg (by omega), if_neg (by omega), if_neg (by omega)]

theorem MethodNetworkSetting.kind_eq_none {key : ℕ} (h : traits.length ≤ key) :
    requestKind key = none ∧ responseKind key = none := by
  have hlength : traits.length = 14 := by decide
  have hnot : key ∉ [settingsSaved, restartNeeded] := by
    intro hmem
    have hlt : ∀ k ∈ [settingsSaved, restartNeeded], k < 14 := by decide
    have := hlt key hmem
    omega
  refine ⟨if_neg (by omega), ?_⟩
  rw [responseKind, if_neg hnot, if_neg (by omega)]

/-- Keys have different names, and all forms are about keys of their method. -/
theorem Method.suits (m : Method) :
    m.parseRequest.Suits m.traits ∧ m.parseResponse.Suits m.traits ∧
      m.parseRequest.SkipsToken m.traits := by
  cases m with
  | authenticate =>
    exact ⟨Form.required_suits (by decide) (by decide) (by decide),
      Form.required_suits (by decide) (by decide) (by decide),
      Form.required_skipsToken (by decide)⟩
  | echo =>
    exact ⟨Form.required_suits (by decide) (by decide) (by decide),
      Form.required_suits (by decide) (by decide) (by decide),
      Form.required_skipsToken (by decide)⟩
  | getRate =>
    exact ⟨Form.required_suits (by decide) (by decide) (by decide),
      Form.required_suits (by decide) (by decide) (by decide),
      Form.required_skipsToken (by decide)⟩
  | i2pControl =>
    have hnodup : MethodI2PControl.traits.Nodup := by
      rw [MethodI2PControl.traits]
      repeat rw [ascii_ofList]
      decide
    have hrequest := Form.each_suits hnodup (fun _ h => (MethodI2PControl.kind_eq_none h).1)
      fun (_ : true = true) => by decide
    exact ⟨hrequest, Form.each_suits hnodup (fun _ h => (MethodI2PControl.kind_eq_none h).2)
      (fun h => by cases h), hrequest.skipsToken⟩
  | routerInfo =>
    have hnodup : MethodRouterInfo.traits.Nodup := by
      rw [MethodRouterInfo.traits]
      repeat rw [ascii_ofList]
      decide
    have hrequest := Form.each_suits hnodup (fun _ h => (MethodRouterInfo.kind_eq_none h).1)
      fun (_ : true = true) => by decide
    exact ⟨hrequest, Form.each_suits hnodup (fun _ h => (MethodRouterInfo.kind_eq_none h).2)
      (fun h => by cases h), hrequest.skipsToken⟩
  | routerManager =>
    have hnodup : MethodRouterManager.traits.Nodup := by
      rw [MethodRouterManager.traits]
      repeat rw [ascii_ofList]
      decide
    have hrequest := Form.each_suits hnodup (fun _ h => (MethodRouterManager.kind_eq_none h).1)
      fun (_ : true = true) => by decide
    exact ⟨hrequest, Form.each_suits hnodup (fun _ h => (MethodRouterManager.kind_eq_none h).2)
      (fun h => by cases h), hrequest.skipsToken⟩
  | networkSetting =>
    have hnodup : MethodNetworkSetting.traits.Nodup := by
      rw [MethodNetworkSetting.traits]
      repeat rw [ascii_ofList]
      decide
    have hrequest := Form.each_suits hnodup (fun _ h => (MethodNetworkSetting.kind_eq_none h).1)
      fun (_ : true = true) => by decide
    exact ⟨hrequest, Form.each_suits hnodup (fun _ h => (MethodNetworkSetting.kind_eq_none h).2)
      (fun h => by cases h), hrequest.skipsToken⟩

end Suits

/-! ## Parsing -/

section Parsing

variable {ι : Type}

/-- A loop that sets the values of the items, one after the other; an item may be passed over. -/
def setAll (item : ι → Option (Option (ℕ × ValueType Double))) (items : List ι)
    (params : Params Double) : Option (Params Double) :=
  items.foldlM (fun params a => (item a).map fun e =>
    match e with
    | none => params
    | some (key, v) => setParam params key v) params

variable {item : ι → Option (Option (ℕ × ValueType Double))} {items : List ι}
  {p p' : Params Double}

theorem setAll_cons (a : ι) : setAll item (a :: items) p =
    (item a).bind fun e => setAll item items (match e with
      | none => p
      | some (key, v) => setParam p key v) := by
  rw [setAll, List.foldlM_cons]
  cases item a <;> rfl

/-- Every value that is set belongs to an item. -/
theorem item_of_setAll (h : setAll item items p = some p') {key : ℕ} {v : ValueType Double}
    (hv : p' key = some v) : p key = some v ∨ ∃ a ∈ items, item a = some (some (key, v)) := by
  induction items generalizing p with
  | nil =>
    cases h
    exact .inl hv
  | cons a items ih =>
    rw [setAll_cons] at h
    obtain ⟨e, he, hrest⟩ := Option.bind_eq_some_iff.mp h
    rcases ih hrest with hp | ⟨b, hb, heq⟩
    · cases e with
      | none => exact .inl hp
      | some e =>
        obtain ⟨key', v'⟩ := e
        dsimp only [setParam] at hp
        by_cases hkey : key = key'
        · rw [hkey, Function.update_self] at hp
          obtain rfl := Option.some.inj hp
          exact .inr ⟨a, List.mem_cons_self, hkey ▸ he⟩
        · rw [Function.update_of_ne hkey] at hp
          exact .inl hp
    · exact .inr ⟨b, List.mem_cons_of_mem a hb, heq⟩

/-- A value that is set once is not unset. -/
theorem setAll_ne_none (h : setAll item items p = some p') {key : ℕ} (hkey : p key ≠ none) :
    p' key ≠ none := by
  induction items generalizing p with
  | nil =>
    cases h
    exact hkey
  | cons a items ih =>
    rw [setAll_cons] at h
    obtain ⟨e, -, hrest⟩ := Option.bind_eq_some_iff.mp h
    refine ih hrest ?_
    cases e with
    | none => exact hkey
    | some e =>
      dsimp only [setParam]
      by_cases heq : key = e.1
      · rw [heq, Function.update_self]
        exact Option.some_ne_none _
      · rwa [Function.update_of_ne heq]

/-- Every item is set. -/
theorem isSet_of_setAll (h : setAll item items p = some p') :
    ∀ a ∈ items, ∃ e, item a = some e ∧ ∀ key v, e = some (key, v) → p' key ≠ none := by
  induction items generalizing p with
  | nil => exact List.forall_mem_nil _
  | cons a items ih =>
    rw [setAll_cons] at h
    obtain ⟨e, he, hrest⟩ := Option.bind_eq_some_iff.mp h
    refine List.forall_mem_cons.mpr ⟨⟨e, he, ?_⟩, ih hrest⟩
    rintro key v rfl
    refine setAll_ne_none hrest ?_
    dsimp only [setParam]
    rw [Function.update_self]
    exact Option.some_ne_none v

theorem exists_setAll (h : ∀ a ∈ items, (item a).isSome) (p : Params Double) :
    ∃ p', setAll item items p = some p' := by
  induction items generalizing p with
  | nil => exact ⟨p, rfl⟩
  | cons a items ih =>
    obtain ⟨ha, hitems⟩ := List.forall_mem_cons.mp h
    obtain ⟨e, he⟩ := Option.isSome_iff_exists.mp ha
    rw [setAll_cons, he]
    exact ih hitems _

end Parsing

namespace Form

variable (fmt) in
/-- A field that is looked up. -/
def field (traits : List (List UInt8)) (tree : PTree) (e : ℕ × Kind) :
    Option (Option (ℕ × ValueType Double)) :=
  ((tree.find (traits.getD e.1 [])).bind (e.2.read fmt)).map fun v => some (e.1, v)

variable (fmt) in
/-- A child in the loop over all children. -/
def child (traits : List (List UInt8)) (kind : ℕ → Option Kind) (skip : Bool)
    (c : List UInt8 × PTree) : Option (Option (ℕ × ValueType Double)) :=
  if skip ∧ c.1 = ascii "Token" then some none
  else ((kind (traits.idxOf c.1)).bind fun k => k.read fmt c.2).map fun v =>
    some (traits.idxOf c.1, v)

theorem parse_required (traits : List (List UInt8)) (fields : List (ℕ × Kind)) (tree : PTree) :
    (required fields).parse fmt traits tree = setAll (field fmt traits tree) fields noParams := by
  rw [parse, setAll]
  congr 1
  funext params ⟨key, kind⟩
  rw [field]
  dsimp only
  cases tree.find (traits.getD key []) with
  | none => rfl
  | some t => cases h : kind.read fmt t <;> simp [h]

theorem parse_each (traits : List (List UInt8)) (kind : ℕ → Option Kind) (skip : Bool)
    (tree : PTree) : (each kind skip).parse fmt traits tree =
      setAll (child fmt traits kind skip) tree.children noParams := by
  rw [parse, setAll]
  congr 1
  funext params ⟨name, t⟩
  rw [child]
  dsimp only
  split_ifs
  · rfl
  · cases hkind : kind (traits.idxOf name) with
    | none => simp
    | some k => cases h : k.read fmt t <;> simp [h]

/-- What is parsed comes from the children of the names of the keys. -/
theorem parse_sound {f : Form} {traits : List (List UInt8)} (hsuits : f.Suits traits)
    {tree : PTree} {values : Params Double} (h : f.parse fmt traits tree = some values) :
    (∀ key v, values key = some v → ∃ k t, f.kind key = some k ∧
      (traits.getD key [], t) ∈ tree.children ∧ k.read fmt t = some v) ∧
    ∀ key ∈ f.needs, values key ≠ none := by
  cases f with
  | required fields =>
    rw [parse_required] at h
    constructor
    · intro key v hv
      obtain ⟨⟨key', k⟩, hmem, hfield⟩ := (item_of_setAll h hv).resolve_left (by simp [noParams])
      obtain ⟨w, hw, heq⟩ := Option.map_eq_some_iff.mp hfield
      obtain ⟨rfl, rfl⟩ := Prod.mk.inj (Option.some.inj heq)
      obtain ⟨t, ht, hread⟩ := Option.bind_eq_some_iff.mp hw
      have hdistinct : AssocMap.Distinct fields := hsuits.needs_nodup
      exact ⟨k, t, hdistinct.find_eq_some hmem, AssocMap.mem_of_find ht, hread⟩
    · intro key hkey
      obtain ⟨⟨key', k⟩, hmem, rfl⟩ := List.mem_map.mp hkey
      obtain ⟨e, he, hset⟩ := isSet_of_setAll h (key', k) hmem
      obtain ⟨v, -, rfl⟩ := Option.map_eq_some_iff.mp he
      exact hset key' v rfl
  | each kind skip =>
    rw [parse_each] at h
    refine ⟨fun key v hv => ?_, fun key hkey => absurd hkey List.not_mem_nil⟩
    obtain ⟨⟨name, t⟩, hmem, hchild⟩ := (item_of_setAll h hv).resolve_left (by simp [noParams])
    rw [child] at hchild
    split_ifs at hchild
    · cases hchild
    · obtain ⟨w, hw, heq⟩ := Option.map_eq_some_iff.mp hchild
      obtain ⟨rfl, rfl⟩ := Prod.mk.inj (Option.some.inj heq)
      obtain ⟨k, hk, hread⟩ := Option.bind_eq_some_iff.mp hw
      -- a key with a kind is the place of its name
      have hlt : traits.idxOf name < traits.length := hsuits.key_lt hk
      have hname : traits.getD (traits.idxOf name) [] = name := by
        rw [List.getD_eq_getElem _ _ hlt, List.getElem_idxOf]
      exact ⟨k, t, hk, hname.symm ▸ hmem, hread⟩

/-- The children of an object are parsed as the parameters that they are written from. -/
theorem parse_complete {f : Form} {traits : List (List UInt8)} (hsuits : f.Suits traits)
    {cs : List (List UInt8 × PTree)} (hdistinct : AssocMap.Distinct cs) {params : Params Double}
    (hset : ∀ key < traits.length, ∀ v, params key = some v → ∃ k t w, f.kind key = some k ∧
      (traits.getD key [], t) ∈ cs ∧ k.read fmt t = some w ∧ w.Same v)
    (hneeds : ∀ key ∈ f.needs, params key ≠ none)
    (hchildren : ∀ c ∈ cs, (c.1 = ascii "Token" ∧ ∀ {kind skip}, f = .each kind skip → skip = true) ∨
      ∃ key < traits.length, params key ≠ none ∧ c.1 = traits.getD key []) :
    ∃ values, f.parse fmt traits (.node cs) = some values ∧
      SameParams traits.length values params := by
  -- what is parsed comes from a child, and a name has one child
  have hsame {values : Params Double} (h : f.parse fmt traits (.node cs) = some values)
      (hall : ∀ key < traits.length, params key ≠ none → values key ≠ none)
      (honly : ∀ key < traits.length, values key ≠ none → params key ≠ none) :
      SameParams traits.length values params := by
    intro key hlt
    cases hvalue : values key with
    | none =>
      have hnone : params key = none := by
        by_contra hne
        exact hall key hlt hne hvalue
      rw [hnone]
      exact .none
    | some v =>
      have hne : params key ≠ none := honly key hlt (by simp [hvalue])
      obtain ⟨v', hv'⟩ := Option.ne_none_iff_exists'.mp hne
      obtain ⟨k, t, hk, hmem, hread⟩ := (parse_sound hsuits h).1 key v hvalue
      obtain ⟨k', t', w, hk', hmem', hread', hw⟩ := hset key hlt v' hv'
      obtain rfl : k = k' := Option.some.inj (hk.symm.trans hk')
      have ht : t = t' := Option.some.inj
        ((hdistinct.find_eq_some hmem).symm.trans (hdistinct.find_eq_some hmem'))
      rw [ht] at hread
      obtain rfl : v = w := Option.some.inj (hread.symm.trans hread')
      rw [hv']
      exact .some hw
  cases f with
  | required fields =>
    have hfields : AssocMap.Distinct fields := hsuits.needs_nodup
    have hneeded {key : ℕ} {k : Kind} (hk : (required fields).kind key = some k) :
        key ∈ (required fields).needs := List.mem_map_of_mem (f := Prod.fst) (AssocMap.mem_of_find hk)
    have hparse : ∃ values, (required fields).parse fmt traits (.node cs) = some values := by
      rw [parse_required]
      refine exists_setAll (fun e he => ?_) noParams
      obtain ⟨key, k⟩ := e
      have hk : (required fields).kind key = some k := hfields.find_eq_some he
      obtain ⟨v, hv⟩ := Option.ne_none_iff_exists'.mp (hneeds key (hneeded hk))
      obtain ⟨k', t, w, hk', hmem, hread, -⟩ := hset key (hsuits.key_lt hk) v hv
      obtain rfl : k = k' := Option.some.inj (hk.symm.trans hk')
      have hfind : PTree.find (.node cs) (traits.getD key []) = some t :=
        hdistinct.find_eq_some hmem
      rw [field, hfind, Option.bind_some, hread]
      rfl
    obtain ⟨values, hvalues⟩ := hparse
    refine ⟨values, hvalues, hsame hvalues (fun key hlt hne => ?_) fun key hlt hne => ?_⟩
    · obtain ⟨v, hv⟩ := Option.ne_none_iff_exists'.mp hne
      obtain ⟨k, t, w, hk, -⟩ := hset key hlt v hv
      exact (parse_sound hsuits hvalues).2 key (hneeded hk)
    · obtain ⟨v, hv⟩ := Option.ne_none_iff_exists'.mp hne
      obtain ⟨k, t, hk, -⟩ := (parse_sound hsuits hvalues).1 key v hv
      exact hneeds key (hneeded hk)
  | each kind skip =>
    have hinj {key key' : ℕ} (hlt : key < traits.length) (hlt' : key' < traits.length)
        (heq : traits.getD key [] = traits.getD key' []) : key = key' := by
      rw [List.getD_eq_getElem _ _ hlt, List.getD_eq_getElem _ _ hlt'] at heq
      exact (hsuits.nodup.getElem_inj_iff).mp heq
    have hidx {key : ℕ} (hlt : key < traits.length) : traits.idxOf (traits.getD key []) = key := by
      rw [List.getD_eq_getElem _ _ hlt, hsuits.nodup.idxOf_getElem]
    -- the child of a key that is set
    have hchild {key : ℕ} (hlt : key < traits.length) (hne : params key ≠ none) :
        ∃ t w, (traits.getD key [], t) ∈ cs ∧
          child fmt traits kind skip (traits.getD key [], t) = some (some (key, w)) := by
      obtain ⟨v, hv⟩ := Option.ne_none_iff_exists'.mp hne
      obtain ⟨k, t, w, hk, hmem, hread, -⟩ := hset key hlt v hv
      have hname : ¬(skip = true ∧ traits.getD key [] = ascii "Token") := by
        rintro ⟨rfl, heq⟩
        exact hsuits.ne_token rfl hk heq
      refine ⟨t, w, hmem, ?_⟩
      have hkind : kind key = some k := hk
      rw [child, if_neg hname]
      dsimp only
      rw [hidx hlt, hkind, Option.bind_some, hread]
      rfl
    have hparse : ∃ values, (each kind skip).parse fmt traits (.node cs) = some values := by
      rw [parse_each]
      refine exists_setAll (fun c hc => ?_) noParams
      rcases hchildren c hc with ⟨hname, hskip⟩ | ⟨key, hlt, hne, hname⟩
      · rw [child, if_pos ⟨hskip rfl, hname⟩]
        rfl
      · obtain ⟨t, w, hmem, hc'⟩ := hchild hlt hne
        obtain ⟨name, t'⟩ := c
        obtain rfl : name = traits.getD key [] := hname
        have ht : t' = t := Option.some.inj
          ((hdistinct.find_eq_some hc).symm.trans (hdistinct.find_eq_some hmem))
        rw [ht, hc']
        rfl
    obtain ⟨values, hvalues⟩ := hparse
    refine ⟨values, hvalues, hsame hvalues (fun key hlt hne => ?_) fun key hlt hne => ?_⟩
    · obtain ⟨t, w, hmem, hc⟩ := hchild hlt hne
      rw [parse_each] at hvalues
      obtain ⟨e, he, hset'⟩ := isSet_of_setAll hvalues _ hmem
      exact hset' key w (Option.some.inj (he.symm.trans hc))
    · obtain ⟨v, hv⟩ := Option.ne_none_iff_exists'.mp hne
      obtain ⟨k, t, hk, hmem, -⟩ := (parse_sound hsuits hvalues).1 key v hv
      rcases hchildren _ hmem with ⟨hname, hskip⟩ | ⟨key', hlt', hne', hname⟩
      · obtain rfl : skip = true := hskip rfl
        exact absurd hname (hsuits.ne_token rfl hk)
      · obtain rfl : key = key' := hinj hlt hlt' hname
        exact hne'

end Form

/-! ## Documents -/

namespace Method

theorem mem_entries {m : Method} {params : Params Double} {e : List UInt8 × ValueType Double} :
    e ∈ m.entries params ↔
      ∃ key < m.traits.length, params key = some e.2 ∧ e.1 = m.traits.getD key [] := by
  obtain ⟨name, v⟩ := e
  simp only [entries, List.mem_filterMap, List.mem_range, Option.map_eq_some_iff, Prod.mk.injEq]
  constructor
  · rintro ⟨key, hlt, w, hw, rfl, rfl⟩
    exact ⟨key, hlt, hw, rfl⟩
  · rintro ⟨key, hlt, hv, rfl⟩
    exact ⟨key, hlt, v, hv, rfl, rfl⟩

theorem getD_inj {m : Method} {key key' : ℕ} (h : key < m.traits.length)
    (h' : key' < m.traits.length) (heq : m.traits.getD key [] = m.traits.getD key' []) :
    key = key' := by
  rw [List.getD_eq_getElem _ _ h, List.getD_eq_getElem _ _ h'] at heq
  exact (m.suits.1.nodup.getElem_inj_iff).mp heq

/-- The entries of a method are about different keys. -/
theorem nodup_entries (m : Method) (params : Params Double) :
    ((m.entries params).map Prod.fst).Nodup := by
  have hnames : (m.entries params).map Prod.fst =
      ((List.range m.traits.length).filter fun key => (params key).isSome).map
        fun key => m.traits.getD key [] := by
    rw [entries]
    induction List.range m.traits.length with
    | nil => rfl
    | cons key keys ih => cases h : params key <;> simpa [h] using ih
  rw [hnames]
  refine (List.nodup_range.filter _).map_on ?_
  intro key hkey key' hkey' heq
  exact getD_inj (List.mem_range.mp (List.mem_filter.mp hkey).1)
    (List.mem_range.mp (List.mem_filter.mp hkey').1) heq

variable (fmt) in
/-- The members of an object for the entries. -/
def members (m : Method) (params : Params Double) : List (List UInt8 × Doc) :=
  (m.entries params).map fun e => (e.1, e.2.doc fmt)

variable (fmt) in
theorem writeMembers_members (m : Method) (params : Params Double) :
    Doc.writeMembers (m.members fmt params) = (m.entries params).flatMap
      fun e => [comma] ++ quoted e.1 ++ [colon] ++ e.2.serialize fmt := by
  rw [Doc.writeMembers_eq, members, List.flatMap_map]
  congr 1
  funext e
  simp [quoted, ValueType.write_doc]

variable (fmt) in
theorem write_members (m : Method) (params : Params Double) :
    (Doc.object (m.members fmt params) false).write =
      [openBrace] ++ m.toJsonString fmt params ++ [closeBrace] := by
  rw [toJsonString]
  cases h : m.entries params with
  | nil =>
    rw [members, h, List.map_nil, Doc.write]
    rfl
  | cons e rest =>
    have hrest : Doc.writeMembers (rest.map fun e => (e.1, e.2.doc fmt)) = rest.flatMap
        fun e => [comma] ++ quoted e.1 ++ [colon] ++ e.2.serialize fmt := by
      have hwrite := writeMembers_members fmt m params
      rw [members, h, List.map_cons, Doc.writeMembers, List.flatMap_cons] at hwrite
      simpa [quoted, ValueType.write_doc] using hwrite
    rw [members, h, List.map_cons, Doc.write, hrest]
    simp [quoted, ValueType.write_doc, Doc.closing]

end Method

namespace Request

variable (fmt)

/-- The members of the parameters: the token and the entries. -/
def paramMembers (r : Request Double) : List (List UInt8 × Doc) :=
  (if r.token ≠ [] then [(ascii "Token", .string r.token)] else []) ++
    r.method.members fmt r.params

/-- The members of a request. -/
def members (r : Request Double) : List (List UInt8 × Doc) :=
  [(ascii "id", r.id.doc fmt), (ascii "method", .string r.method.trait),
    (ascii "params", .object (r.paramMembers fmt)
      (r.token ≠ [] && r.method.entries r.params = [])),
    (ascii "jsonrpc", .string r.version)]

/-- A request as a document. -/
def doc (r : Request Double) : Doc := .object (r.members fmt) false

theorem write_params (r : Request Double) :
    (Doc.object (r.paramMembers fmt) (r.token ≠ [] && r.method.entries r.params = [])).write =
      [openBrace] ++
        (if r.token ≠ [] then quoted (ascii "Token") ++ [colon] ++ quoted r.token ++ [comma]
          else []) ++
        r.method.toJsonString fmt r.params ++ [closeBrace] := by
  by_cases htoken : r.token = []
  · have hwrite := r.method.write_members fmt r.params
    simpa [paramMembers, htoken] using hwrite
  · have hmembers := r.method.writeMembers_members fmt r.params
    rw [paramMembers, if_pos htoken, List.singleton_append, Doc.write, hmembers,
      Method.toJsonString, if_pos htoken]
    cases h : r.method.entries r.params with
    | nil => simp [quoted, Doc.write, Doc.closing, htoken]
    | cons e rest => simp [quoted, Doc.write, Doc.closing]

theorem write_doc (r : Request Double) : (r.doc fmt).write = r.toJsonString fmt := by
  rw [doc, members, Doc.write, Doc.writeMembers_eq]
  simp only [List.flatMap_cons, List.flatMap_nil, write_params, ValueType.write_doc, Doc.write]
  unfold toJsonString
  simp [quoted, Doc.closing]

end Request

namespace Response

variable (fmt)

/-- The members of a response. -/
def members (r : Response Double) : List (List UInt8 × Doc) :=
  (ascii "id", r.id.doc fmt) ::
    ((match r.method with
      | none => []
      | some method => [(ascii "result", .object (method.members fmt r.params) false)]) ++
    (ascii "jsonrpc", .string r.version) ::
    match r.error with
    | none => []
    | some e => [(ascii "error", .object [(ascii "code", .literal (45 :: decimal e.code.natAbs)),
        (ascii "message", .string e.trait)] false)])

/-- A response as a document. -/
def doc (r : Response Double) : Doc := .object (r.members fmt) false

theorem write_doc (r : Response Double) : (r.doc fmt).write = r.toJsonString fmt := by
  rw [doc, members, Doc.write, Doc.writeMembers_eq, ValueType.write_doc]
  unfold toJsonString
  cases r.method <;> cases r.error <;>
    simp [quoted, Doc.closing, Doc.write, Doc.writeMembers, Method.write_members]

end Response

/-! ## Same parameters -/

section SameParams

variable {a b c : Option (ValueType Double)}

theorem rel_symm (h : Option.Rel ValueType.Same a b) : Option.Rel ValueType.Same b a := by
  cases h with
  | some h => exact .some h.symm
  | none => exact .none

theorem rel_trans (h : Option.Rel ValueType.Same a b) (h' : Option.Rel ValueType.Same b c) :
    Option.Rel ValueType.Same a c := by
  cases h with
  | none => exact h'
  | some h =>
    cases h' with
    | some h' => exact .some (h.trans h')

theorem rel_eq_none_iff (h : Option.Rel ValueType.Same a b) : a = none ↔ b = none := by
  cases h <;> simp

theorem exists_of_rel_some {v : ValueType Double} (h : Option.Rel ValueType.Same a (some v)) :
    ∃ w, a = some w ∧ w.Same v := by
  cases h with
  | some h => exact ⟨_, rfl, h⟩

/-- The same value is written under the same name. -/
theorem map_serialize_of_rel (h : Option.Rel ValueType.Same a b) (name : List UInt8) :
    (a.map fun v => (name, v)).map (fun e => (e.1, e.2.serialize fmt)) =
      (b.map fun v => (name, v)).map fun e => (e.1, e.2.serialize fmt) := by
  cases h with
  | none => rfl
  | some h => simp [ValueType.Same.serialize h]

variable {keys : ℕ} {p q r : Params Double}

theorem SameParams.symm (h : SameParams keys p q) : SameParams keys q p := fun key hlt =>
  rel_symm (h key hlt)

theorem SameParams.trans (h : SameParams keys p q) (h' : SameParams keys q r) :
    SameParams keys p r := fun key hlt => rel_trans (h key hlt) (h' key hlt)

theorem SameParams.exists_right (h : SameParams keys p q) {key : ℕ} (hlt : key < keys)
    {v : ValueType Double} (hv : q key = some v) : ∃ w, p key = some w ∧ w.Same v :=
  exists_of_rel_some (hv ▸ h key hlt)

theorem SameParams.eq_none_iff (h : SameParams keys p q) {key : ℕ} (hlt : key < keys) :
    p key = none ↔ q key = none := rel_eq_none_iff (h key hlt)

end SameParams

/-- The members of an object, from their names and texts. -/
def membersText : List (List UInt8 × List UInt8) → List UInt8
  | [] => []
  | (name, text) :: rest => quoted name ++ [colon] ++ text ++
    rest.flatMap fun (name, text) => [comma] ++ quoted name ++ [colon] ++ text

/-- The same parameters are written in the same way. -/
theorem Method.toJsonString_congr (m : Method) {p q : Params Double}
    (h : SameParams m.traits.length p q) : m.toJsonString fmt p = m.toJsonString fmt q := by
  have hentries : (m.entries p).map (fun e => (e.1, e.2.serialize fmt)) =
      (m.entries q).map fun e => (e.1, e.2.serialize fmt) := by
    rw [entries, entries, List.map_filterMap, List.map_filterMap]
    refine List.filterMap_congr fun key hkey => ?_
    exact map_serialize_of_rel (h key (List.mem_range.mp hkey)) _
  have htext (params : Params Double) : m.toJsonString fmt params =
      membersText ((m.entries params).map fun e => (e.1, e.2.serialize fmt)) := by
    rw [toJsonString]
    cases m.entries params with
    | nil => rfl
    | cons e rest => simp [membersText, List.flatMap_map]
  rw [htext, htext, hentries]

theorem Form.Accepts.congr {keys : ℕ} {f : Form} {p q : Params Double}
    (hp : f.Accepts fmt keys p) (hneeds : ∀ key ∈ f.needs, key < keys) (h : SameParams keys p q) :
    f.Accepts fmt keys q := by
  refine ⟨fun key hlt v hv => ?_, fun key hkey hq => ?_⟩
  · obtain ⟨w, hw, hsame⟩ := h.exists_right hlt hv
    obtain ⟨k, hk, hfits⟩ := hp.1 key hlt w hw
    exact ⟨k, hk, hfits.congr hsame⟩
  · exact hp.2 key hkey ((h.eq_none_iff (hneeds key hkey)).mpr hq)

/-! ## Documents that are read -/

/-- A document that holds plain texts and is complete is read. -/
theorem readJson_of_plainText {d : Doc} (hcomplete : d.isComplete = true)
    (hplain : ∀ s ∈ d.strings, PlainText s)
    (htokens : ∀ t ∈ d.tokens, ∀ b ∈ t, isLiteralChar b = true) :
    readJson d.write = some d.tree := by
  have hreadable : d.Readable := ⟨fun s hs => (hplain s hs).1, htokens⟩
  rw [Doc.readJson_write hreadable, if_pos ⟨fun s hs => (hplain s hs).2, hcomplete⟩]

/-- A document that is read as a tree that covers it has plain texts, is complete and is read as
it was written. -/
theorem plainText_of_readJson {n : ℕ} {t : PTree} {d : Doc} (h : Covers n t d) (hn : n < 3)
    (htokens : ∀ t ∈ d.tokens, ∀ b ∈ t, isLiteralChar b = true)
    (hread : readJson d.write = some t) :
    d.isComplete = true ∧ (∀ s ∈ d.strings, PlainText s) ∧ t = d.tree := by
  have hplain := h.plain_of_readJson hn hread
  have hreadable : d.Readable := ⟨hplain, htokens⟩
  rw [Doc.readJson_write hreadable] at hread
  split_ifs at hread with hvalid
  exact ⟨hvalid.2, fun s hs => ⟨hplain s hs, hvalid.1 s hs⟩, (Option.some.inj hread).symm⟩

theorem distinct_trees {ms : List (List UInt8 × Doc)} (h : (ms.map Prod.fst).Nodup) :
    AssocMap.Distinct (Doc.trees ms) := by
  rw [AssocMap.Distinct, Doc.trees_eq, List.map_map]
  exact h

theorem mem_trees {ms : List (List UInt8 × Doc)} {m : List UInt8 × Doc} (h : m ∈ ms) :
    (m.1, m.2.tree) ∈ Doc.trees ms := by
  rw [Doc.trees_eq]
  exact List.mem_map_of_mem (f := fun m : List UInt8 × Doc => (m.1, m.2.tree)) h

/-- A member is found under its name. -/
theorem find_tree {ms : List (List UInt8 × Doc)} (h : (ms.map Prod.fst).Nodup)
    {name : List UInt8} {d : Doc} (hmem : (name, d) ∈ ms) (comma : Bool) :
    (Doc.object ms comma).tree.find name = some d.tree := by
  rw [Doc.tree]
  exact (distinct_trees h).find_eq_some (mem_trees hmem)

namespace Form

variable {m : Method} {f : Form} {params : Params Double}

/-- The entries that are parsed are covered by the children. -/
theorem covers_members (hsuits : f.Suits m.traits) {tree : PTree}
    (h : f.parse fmt m.traits tree = some params) :
    ∀ e ∈ m.members fmt params, ∃ t, (e.1, t) ∈ tree.children ∧ Covers 0 t e.2 := by
  rw [Method.members, List.forall_mem_map]
  intro e he
  obtain ⟨key, -, hv, hname⟩ := Method.mem_entries.mp he
  obtain ⟨k, t, -, hmem, hread⟩ := (parse_sound hsuits h).1 key e.2 hv
  exact ⟨t, hname ▸ hmem, Kind.covers_of_read hread⟩

/-- The parameters that are parsed cover those that are written, up to two braces and a comma. -/
theorem covers_object_of_children {ms : List (List UInt8 × Doc)} (hnodup : (ms.map Prod.fst).Nodup)
    {p : PTree} (h : ∀ d ∈ ms, ∃ t, (d.1, t) ∈ p.children ∧ Covers 0 t d.2) {comma : Bool}
    (hcomma : p.children = [] → comma = false) : Covers 2 p (.object ms comma) := by
  cases p with
  | node cs =>
    refine (covers_object hnodup (fun _ => 0) comma h).mono ?_
    have hsum : (ms.map fun _ => 0).sum = 0 := by simp
    rw [hsum]
    split_ifs <;> omega
  | leaf data =>
    -- there are no children, hence no members
    have hnil : ms = [] := by
      refine List.eq_nil_iff_forall_not_mem.mpr fun d hd => ?_
      obtain ⟨t, hmem, -⟩ := h d hd
      exact absurd hmem List.not_mem_nil
    rw [hnil, hcomma rfl]
    refine ⟨?_, fun _ => ?_⟩
    · rw [Doc.weight_object]
      exact Nat.le_add_left _ _
    · rw [Doc.strings, Doc.stringsMembers]
      exact List.forall_mem_nil _

theorem nodup_members (m : Method) (params : Params Double) :
    ((m.members fmt params).map Prod.fst).Nodup := by
  rw [Method.members, List.map_map]
  exact m.nodup_entries params

/-- Parameters that are parsed from their own document are accepted. -/
theorem accepts_of_parse (hsuits : f.Suits m.traits) {ms : List (List UInt8 × Doc)}
    (hnodup : (ms.map Prod.fst).Nodup) (hsub : m.members fmt params ⊆ ms)
    (h : f.parse fmt m.traits (.node (Doc.trees ms)) = some params)
    (hms : ∀ d ∈ ms, d.2.isComplete = true ∧ ∀ s ∈ d.2.strings, PlainText s) :
    f.Accepts fmt m.traits.length params := by
  obtain ⟨hsound, hneeds⟩ := parse_sound hsuits h
  refine ⟨fun key hlt v hv => ?_, hneeds⟩
  obtain ⟨k, t, hk, hmem, hread⟩ := hsound key v hv
  have hentry : (m.traits.getD key [], v) ∈ m.entries params :=
    Method.mem_entries.mpr ⟨key, hlt, hv, rfl⟩
  have hmember : (m.traits.getD key [], v.doc fmt) ∈ ms :=
    hsub (List.mem_map_of_mem (f := fun e : List UInt8 × ValueType Double => (e.1, e.2.doc fmt))
      hentry)
  -- the child of the name is the value as it was written
  have hdistinct := distinct_trees hnodup
  have htree : (v.doc fmt).tree = t := Option.some.inj
    ((hdistinct.find_eq_some (mem_trees hmember)).symm.trans (hdistinct.find_eq_some hmem))
  obtain ⟨hcomplete, hplain⟩ := hms _ hmember
  exact ⟨k, hk, Kind.fits_of_read hread htree hcomplete hplain⟩

/-- Parameters that are accepted are the same as some that hold. -/
theorem Accepts.exists_holds {keys : ℕ} (h : f.Accepts fmt keys params)
    (hneeds : ∀ key ∈ f.needs, key < keys) :
    ∃ p, SameParams keys p params ∧
      (∀ key < keys, ∀ v, p key = some v → ∃ k, f.kind key = some k ∧ k.Holds fmt v) ∧
      ∀ key ∈ f.needs, p key ≠ none := by
  have hkey : ∀ key, ∃ o : Option (ValueType Double), key < keys →
      Option.Rel ValueType.Same o (params key) ∧
        ∀ v, o = some v → ∃ k, f.kind key = some k ∧ k.Holds fmt v := by
    intro key
    by_cases hlt : key < keys
    · cases hparam : params key with
      | none => exact ⟨none, fun _ => ⟨.none, fun v hv => by cases hv⟩⟩
      | some v =>
        obtain ⟨k, hk, hfits⟩ := h.1 key hlt v hparam
        obtain ⟨w, hsame, hholds⟩ := hfits.exists_holds
        refine ⟨some w, fun _ => ⟨.some hsame, fun u hu => ⟨k, hk, ?_⟩⟩⟩
        rwa [← Option.some.inj hu]
    · exact ⟨none, fun hlt' => absurd hlt' hlt⟩
  choose p hp using hkey
  have hsame : SameParams keys p params := fun key hlt => (hp key hlt).1
  refine ⟨p, hsame, fun key hlt => (hp key hlt).2, fun key hmem hnone => ?_⟩
  exact h.2 key hmem ((hsame.eq_none_iff (hneeds key hmem)).mp hnone)

/-- Parameters that hold are parsed from their document. -/
theorem parse_trees (hsuits : f.Suits m.traits) {ms : List (List UInt8 × Doc)}
    (hnodup : (ms.map Prod.fst).Nodup) (hsub : m.members fmt params ⊆ ms)
    (hms : ∀ d ∈ ms, (d.1 = ascii "Token" ∧ ∀ {kind skip}, f = .each kind skip → skip = true) ∨
      d ∈ m.members fmt params)
    (hholds : ∀ key < m.traits.length, ∀ v, params key = some v →
      ∃ k, f.kind key = some k ∧ k.Holds fmt v)
    (hneeds : ∀ key ∈ f.needs, params key ≠ none) :
    ∃ values, f.parse fmt m.traits (.node (Doc.trees ms)) = some values ∧
      SameParams m.traits.length values params := by
  refine parse_complete hsuits (distinct_trees hnodup) (fun key hlt v hv => ?_) hneeds ?_
  · obtain ⟨k, hk, hv'⟩ := hholds key hlt v hv
    obtain ⟨w, hread, hsame⟩ := hv'.read
    have hentry : (m.traits.getD key [], v) ∈ m.entries params :=
      Method.mem_entries.mpr ⟨key, hlt, hv, rfl⟩
    have hmember : (m.traits.getD key [], v.doc fmt) ∈ ms :=
      hsub (List.mem_map_of_mem (f := fun e : List UInt8 × ValueType Double => (e.1, e.2.doc fmt))
        hentry)
    exact ⟨k, (v.doc fmt).tree, w, hk, mem_trees hmember, hread, hsame⟩
  · rw [Doc.trees_eq, List.forall_mem_map]
    intro d hd
    refine (hms d hd).imp_right fun hmem => ?_
    obtain ⟨e, he, rfl⟩ := List.mem_map.mp hmem
    obtain ⟨key, hlt, hv, hname⟩ := Method.mem_entries.mp he
    exact ⟨key, hlt, by simp [hv], hname⟩

theorem Suits.needs_lt {traits : List (List UInt8)} (h : f.Suits traits) :
    ∀ key ∈ f.needs, key < traits.length := by
  intro key hkey
  cases f with
  | required fields =>
    obtain ⟨⟨key', k⟩, hmem, rfl⟩ := List.mem_map.mp hkey
    have hfields : AssocMap.Distinct fields := h.needs_nodup
    exact h.key_lt (hfields.find_eq_some hmem)
  | each kind skip => exact absurd hkey List.not_mem_nil

end Form

/-! ## The ID and the version -/

/-- The children that `I2PControlData::Parse` reads. -/
theorem parseData_eq_some {t : PTree} {id : ValueType Double} {version : List UInt8}
    (h : parseData t = some (id, version)) :
    ∃ i v, t.find (ascii "id") = some i ∧ t.find (ascii "jsonrpc") = some v ∧ version = v.data ∧
      ((i.data.head? = some quote ∧ id = .string i.data) ∨ ∃ n, id = .size n) := by
  rw [parseData] at h
  obtain ⟨i, hi, h⟩ := Option.bind_eq_some_iff.mp h
  split_ifs at h with hquote
  · obtain ⟨id', hid, h⟩ := Option.bind_eq_some_iff.mp h
    obtain ⟨v, hv, heq⟩ := Option.bind_eq_some_iff.mp h
    obtain ⟨rfl, rfl⟩ := Prod.mk.inj (Option.some.inj heq)
    exact ⟨i, v, hi, hv, rfl, .inl ⟨hquote, (Option.some.inj hid).symm⟩⟩
  · obtain ⟨id', hid, h⟩ := Option.bind_eq_some_iff.mp h
    obtain ⟨v, hv, heq⟩ := Option.bind_eq_some_iff.mp h
    obtain ⟨rfl, rfl⟩ := Prod.mk.inj (Option.some.inj heq)
    obtain ⟨n, -, rfl⟩ := Option.map_eq_some_iff.mp hid
    exact ⟨i, v, hi, hv, rfl, .inr ⟨n, rfl⟩⟩

/-- An ID that is read is covered. -/
theorem covers_id {i : PTree} {id : ValueType Double}
    (h : (i.data.head? = some quote ∧ id = .string i.data) ∨ ∃ n, id = .size n) :
    Covers 0 i (id.doc fmt) := by
  rcases h with ⟨-, rfl⟩ | ⟨n, rfl⟩
  · exact ValueType.covers_string i
  · rw [ValueType.doc]
    exact covers_literal (weight_decimal _)

/-- A string that starts with a quotation mark is no plain text. -/
theorem id_eq_size {i : PTree} {id : ValueType Double}
    (h : (i.data.head? = some quote ∧ id = .string i.data) ∨ ∃ n, id = .size n)
    (hplain : ∀ s ∈ (id.doc fmt).strings, PlainText s) : ∃ n, id = .size n := by
  refine h.resolve_left ?_
  rintro ⟨hquote, rfl⟩
  have hne : i.data ≠ [] := by
    intro hnil
    rw [hnil] at hquote
    cases hquote
  rw [ValueType.doc_string hne, Doc.strings, List.forall_mem_singleton] at hplain
  exact (hplain.1 quote (List.mem_of_head? hquote)).1 rfl

/-- The version is read back, or it is the version that is written by default. -/
theorem covers_version {v : PTree} {version : List UInt8}
    (h : version = v.data ∨ version = ascii "2.0") : Covers 0 v (.string version) := by
  rcases h with rfl | rfl
  · exact covers_string v
  · refine ⟨?_, fun _ => ?_⟩
    · have hweight : weight (Doc.string (ascii "2.0")).write = 0 := by
        rw [Doc.write]
        decide
      omega
    · rw [Doc.strings, List.forall_mem_singleton]
      decide

/-- The ID of the same message. -/
theorem ValueType.Same.eq_size {v w : ValueType Double} (h : v.Same w) {n : UInt64}
    (hv : v = .size n) : w = .size n := by
  rw [hv] at h
  exact h.symm.eq_of_ne fun j heq => by cases heq

/-- A numeric ID is read back. -/
theorem parseData_written {t v : PTree} {n : UInt64}
    (hid : t.find (ascii "id") = some (.leaf (decimal n.toNat)))
    (hversion : t.find (ascii "jsonrpc") = some v) :
    parseData t = some ((.size n : ValueType Double), v.data) := by
  have hhead : (decimal n.toNat).head? ≠ some quote := by
    intro heq
    have hdigit := isDigit_decimal n.toNat quote (List.mem_of_head? heq)
    exact absurd hdigit (by decide)
  rw [parseData, hid, hversion]
  simp [PTree.data, hhead, readSize_decimal]

/-! ## Requests -/

/-- What is restored of a request. -/
structure Request.Same (r s : Request Double) : Prop where
  id : r.id.Same s.id
  method : r.method = s.method
  token : r.token = s.token
  params : SameParams s.method.traits.length r.params s.params

/-- A request is written as a JSON text, and the same request is parsed from it. -/
def Request.Restored (fmt : DoubleFormat Double) (r : Request Double) : Prop :=
  ∃ r', parse fmt (r.toJsonString fmt) = some r' ∧ r'.Same r

/-- The requests that are restored. -/
structure Request.Restorable (fmt : DoubleFormat Double) (r : Request Double) : Prop where
  id : ∃ n, r.id = .size n
  token : PlainText r.token
  /-- A comma follows the token. -/
  separator : r.token ≠ [] → ∃ key < r.method.traits.length, r.params key ≠ none
  params : r.method.parseRequest.Accepts fmt r.method.traits.length r.params

namespace Request

theorem parse_eq_some {text : List UInt8} {r : Request Double} (h : parse fmt text = some r) :
    ∃ t name params, readJson text = some t ∧ parseData t = some (r.id, r.version) ∧
      t.find (ascii "method") = some name ∧ name.data = r.method.trait ∧
      t.find (ascii "params") = some params ∧
      r.token = ((params.find (ascii "Token")).map PTree.data).getD [] ∧
      r.method.parseRequest.parse fmt r.method.traits params = some r.params := by
  rw [parse] at h
  simp only [Option.bind_eq_bind, Option.bind_eq_some_iff] at h
  obtain ⟨t, ht, ⟨id, version⟩, hdata, name, hname, m, hm, params, hparams, values, hvalues, heq⟩ := h
  obtain rfl := Option.some.inj heq
  refine ⟨t, name, params, ht, hdata, hname, ?_, hparams, rfl, hvalues⟩
  rw [Method.fromString] at hm
  simpa using List.find?_some hm

variable (fmt) in
/-- The text is about the ID, the method, the token, the parameters and the version. -/
theorem toJsonString_congr {r s : Request Double} (h : r.Same s) (hversion : r.version = s.version) :
    r.toJsonString fmt = s.toJsonString fmt := by
  have hparams : r.method.toJsonString fmt r.params = s.method.toJsonString fmt s.params := by
    rw [h.method]
    exact s.method.toJsonString_congr h.params
  unfold toJsonString
  rw [h.id.serialize, hparams, h.method, h.token, hversion]

theorem members_nodup (r : Request Double) : ((r.members fmt).map Prod.fst).Nodup := by
  simp only [members, List.map_cons, List.map_nil]
  decide

/-- The token is no parameter of a method. -/
theorem paramMembers_nodup {r : Request Double}
    (h : ∀ key < r.method.traits.length, ∀ v, r.params key = some v →
      r.method.traits.getD key [] ≠ ascii "Token") :
    ((r.paramMembers fmt).map Prod.fst).Nodup := by
  have hentries : ((r.method.members fmt r.params).map Prod.fst).Nodup :=
    Form.nodup_members r.method r.params
  rw [paramMembers]
  split_ifs
  · rw [List.singleton_append, List.map_cons, List.nodup_cons]
    refine ⟨fun hmem => ?_, hentries⟩
    obtain ⟨d, hd, hname⟩ := List.mem_map.mp hmem
    obtain ⟨e, he, rfl⟩ := List.mem_map.mp hd
    obtain ⟨key, hlt, hv, hkey⟩ := Method.mem_entries.mp he
    exact h key hlt e.2 hv (hkey.symm.trans hname)
  · exact hentries

theorem mem_paramMembers {r : Request Double} {d : List UInt8 × Doc} :
    d ∈ r.paramMembers fmt ↔
      (r.token ≠ [] ∧ d = (ascii "Token", .string r.token)) ∨ d ∈ r.method.members fmt r.params := by
  rw [paramMembers, List.mem_append]
  split_ifs with h <;> simp [h]

theorem tokens_members {m : Method} {params : Params Double} :
    ∀ t ∈ Doc.tokensMembers (m.members fmt params), ∀ b ∈ t, isLiteralChar b = true := by
  rw [Doc.forall_mem_tokensMembers, Method.members, List.forall_mem_map]
  exact fun e _ => e.2.tokens_doc

theorem tokens_doc (r : Request Double) :
    ∀ t ∈ (r.doc fmt).tokens, ∀ b ∈ t, isLiteralChar b = true := by
  have hparams : ∀ t ∈ Doc.tokensMembers (r.paramMembers fmt), ∀ b ∈ t, isLiteralChar b = true := by
    rw [Doc.forall_mem_tokensMembers]
    intro d hd
    rcases mem_paramMembers.mp hd with ⟨-, rfl⟩ | hmem
    · simp [Doc.tokens]
    · exact Doc.forall_mem_tokensMembers.mp tokens_members d hmem
  rw [doc, Doc.tokens, Doc.forall_mem_tokensMembers, members]
  simp only [List.forall_mem_cons, Doc.tokens]
  exact ⟨r.id.tokens_doc, List.forall_mem_nil _, hparams, List.forall_mem_nil _,
    List.forall_mem_nil _⟩

end Request

theorem Method.plainText_trait (m : Method) :
    PlainText m.trait ∧ ∀ name ∈ m.traits, PlainText name := by
  cases m <;> simp only [Method.trait, Method.traits, MethodAuthenticate.traits, MethodEcho.traits,
    MethodGetRate.traits, MethodI2PControl.traits, MethodRouterInfo.traits,
    MethodRouterManager.traits, MethodNetworkSetting.traits] <;> repeat rw [ascii_ofList]
  all_goals decide

/-- Names are plain texts. -/
theorem Method.plainText_members (m : Method) (params : Params Double) :
    ∀ d ∈ m.members fmt params, PlainText d.1 := by
  rw [members, List.forall_mem_map]
  intro e he
  obtain ⟨key, hlt, -, hname⟩ := mem_entries.mp he
  rw [hname, List.getD_eq_getElem _ _ hlt]
  exact m.plainText_trait.2 _ (List.getElem_mem hlt)

/-- A document that is complete and holds plain texts. -/
def Valid (d : Doc) : Prop := d.isComplete = true ∧ ∀ s ∈ d.strings, PlainText s

theorem valid_string {s : List UInt8} : Valid (.string s) ↔ PlainText s := by
  rw [Valid, Doc.isComplete, Doc.strings, List.forall_mem_singleton]
  exact and_iff_right rfl

theorem valid_decimal (n : ℕ) : Valid (.literal (decimal n)) := by
  rw [Valid, Doc.isComplete, Doc.strings]
  exact ⟨isLiteral_of_isNumber (isNumber_decimal n), List.forall_mem_nil _⟩

/-- Values that hold are written as JSON texts. -/
theorem Form.valid_members {m : Method} {f : Form} {params : Params Double}
    (h : ∀ key < m.traits.length, ∀ v, params key = some v →
      ∃ k, f.kind key = some k ∧ k.Holds fmt v) :
    ∀ d ∈ m.members fmt params, Valid d.2 := by
  rw [Method.members, List.forall_mem_map]
  intro e he
  obtain ⟨key, hlt, hv, -⟩ := Method.mem_entries.mp he
  obtain ⟨k, -, hk⟩ := h key hlt e.2 hv
  exact ⟨hk.complete, hk.plain⟩

theorem valid_object {ms : List (List UInt8 × Doc)} {comma : Bool} :
    Valid (.object ms comma) ↔ comma = false ∧ ∀ d ∈ ms, PlainText d.1 ∧ Valid d.2 := by
  rw [Valid, Doc.isComplete, Doc.strings, Doc.forall_mem_stringsMembers, Bool.and_eq_true,
    Doc.areComplete_iff, Bool.not_eq_true']
  constructor
  · rintro ⟨⟨hcomplete, hcomma⟩, hplain⟩
    exact ⟨hcomma, fun d hd => ⟨(hplain d hd).1, hcomplete d hd, (hplain d hd).2⟩⟩
  · rintro ⟨hcomma, hms⟩
    exact ⟨⟨fun d hd => (hms d hd).2.1, hcomma⟩, fun d hd => ⟨(hms d hd).1, (hms d hd).2.2⟩⟩

namespace Request

/-- The document of a request is a JSON text. -/
theorem valid_doc {r : Request Double} :
    Valid (r.doc fmt) ↔ Valid (r.id.doc fmt) ∧ PlainText r.token ∧ PlainText r.version ∧
      (r.token ≠ [] → r.method.entries r.params ≠ []) ∧
      ∀ d ∈ r.method.members fmt r.params, Valid d.2 := by
  have hnames : PlainText (ascii "id") ∧ PlainText (ascii "method") ∧ PlainText (ascii "params") ∧
      PlainText (ascii "jsonrpc") ∧ PlainText (ascii "Token") := by decide
  have hparams : Valid (.object (r.paramMembers fmt)
      (r.token ≠ [] && r.method.entries r.params = [])) ↔
      PlainText r.token ∧ (r.token ≠ [] → r.method.entries r.params ≠ []) ∧
        ∀ d ∈ r.method.members fmt r.params, Valid d.2 := by
    rw [valid_object]
    constructor
    · rintro ⟨hcomma, hms⟩
      refine ⟨?_, fun hne hnil => ?_, fun d hd => (hms d (mem_paramMembers.mpr (.inr hd))).2⟩
      · by_cases hne : r.token = []
        · rw [hne]
          exact plainText_nil
        · exact valid_string.mp (hms _ (mem_paramMembers.mpr (.inl ⟨hne, rfl⟩))).2
      · simp [hne, hnil] at hcomma
    · rintro ⟨htoken, hseparator, hms⟩
      refine ⟨?_, fun d hd => ?_⟩
      · by_cases hne : r.token = []
        · simp [hne]
        · simp [hseparator hne]
      · rcases mem_paramMembers.mp hd with ⟨-, rfl⟩ | hmem
        · exact ⟨hnames.2.2.2.2, valid_string.mpr htoken⟩
        · exact ⟨r.method.plainText_members r.params d hmem, hms d hmem⟩
  rw [doc, valid_object, members]
  simp only [List.forall_mem_cons, List.not_mem_nil, valid_string, hparams, hnames,
    r.method.plainText_trait.1, true_and]
  tauto

/-- The parameters that are parsed cover those that are written, up to a brace and a comma. -/
theorem covers_params {r : Request Double} {p : PTree}
    (htoken : r.token = ((p.find (ascii "Token")).map PTree.data).getD [])
    (h : r.method.parseRequest.parse fmt r.method.traits p = some r.params) :
    Covers 2 p (.object (r.paramMembers fmt)
      (r.token ≠ [] && r.method.entries r.params = [])) := by
  have hsuits := r.method.suits.1
  have hnames := r.method.suits.2.2
  have hnodup : ((r.paramMembers fmt).map Prod.fst).Nodup := paramMembers_nodup fun key _ v hv => by
    obtain ⟨k, -, hk, -⟩ := (Form.parse_sound hsuits h).1 key v hv
    exact hnames.ne_token hk
  have hmembers : ∀ d ∈ r.paramMembers fmt, ∃ t, (d.1, t) ∈ p.children ∧ Covers 0 t d.2 := by
    intro d hd
    rcases mem_paramMembers.mp hd with ⟨hne, rfl⟩ | hmem
    · cases hfind : p.find (ascii "Token") with
      | none =>
        rw [hfind] at htoken
        exact absurd htoken hne
      | some t =>
        rw [hfind] at htoken
        have hdata : r.token = t.data := htoken
        refine ⟨t, AssocMap.mem_of_find hfind, ?_⟩
        dsimp only
        rw [hdata]
        exact covers_string t
    · exact Form.covers_members hsuits h d hmem
  refine Form.covers_object_of_children hnodup hmembers fun hnil => ?_
  have hnone : r.token = [] := by
    rw [htoken, PTree.find, hnil]
    rfl
  rw [hnone]
  rfl

/-- A request that is restored is restorable. -/
theorem restorable_of_parse {r r' : Request Double}
    (h : parse fmt (r.toJsonString fmt) = some r') (hsame : r'.Same r)
    (hversion : r'.version = r.version ∨ r.version = ascii "2.0") :
    r.Restorable fmt ∧ PlainText r.version := by
  obtain ⟨t, name, p, hread, hdata, hname, hmethod, hp, htoken, hparse⟩ := parse_eq_some h
  obtain ⟨i, v, hi, hv, hversion', hid⟩ := parseData_eq_some hdata
  -- what is parsed is written as what it is parsed from
  let s : Request Double := { r' with version := r.version }
  have htext : (s.doc fmt).write = r.toJsonString fmt := by
    rw [write_doc]
    exact toJsonString_congr fmt ⟨hsame.id, hsame.method, hsame.token, hsame.params⟩ rfl
  have hparams : Covers 2 p (.object (s.paramMembers fmt)
      (s.token ≠ [] && s.method.entries s.params = [])) := covers_params htoken hparse
  have hcovers : Covers 2 t (s.doc fmt) := by
    have hmembers : ∀ d ∈ s.members fmt, ∃ c, (d.1, c) ∈ t.children ∧
        Covers (if d.1 = ascii "params" then 2 else 0) c d.2 := by
      simp only [members, List.forall_mem_cons]
      refine ⟨⟨i, AssocMap.mem_of_find hi, ?_⟩, ⟨name, AssocMap.mem_of_find hname, ?_⟩,
        ⟨p, AssocMap.mem_of_find hp, ?_⟩, ⟨v, AssocMap.mem_of_find hv, ?_⟩, List.forall_mem_nil _⟩
      · exact (covers_id hid).mono (Nat.zero_le _)
      · have hcovers := covers_string name
        rw [hmethod] at hcovers
        exact hcovers.mono (Nat.zero_le _)
      · rw [if_pos trivial]
        exact hparams
      · refine (covers_version ?_).mono (Nat.zero_le _)
        exact hversion.imp_left fun heq => heq.symm.trans hversion'
    cases t with
    | leaf data => exact absurd (AssocMap.mem_of_find hi) List.not_mem_nil
    | node cs =>
      refine (covers_object s.members_nodup (fun key => if key = ascii "params" then 2 else 0) false
        hmembers).mono ?_
      have hsum : ((s.members fmt).map fun d => if d.1 = ascii "params" then 2 else 0).sum = 2 := by
        show ([ascii "id", ascii "method", ascii "params", ascii "jsonrpc"].map
          fun key => if key = ascii "params" then 2 else 0).sum = 2
        decide
      have hne : s.members fmt ≠ [] := List.cons_ne_nil _ _
      rw [hsum, if_neg hne]
      decide
  obtain ⟨hcomplete, hplain, ht⟩ := plainText_of_readJson hcovers (by omega) s.tokens_doc
    (htext ▸ hread)
  obtain ⟨hidValid, htokenPlain, hversionPlain, hseparator, hvalues⟩ :=
    valid_doc.mp ⟨hcomplete, hplain⟩
  have hnodup : ((s.paramMembers fmt).map Prod.fst).Nodup := paramMembers_nodup fun key _ v hv => by
    obtain ⟨k, -, hk, -⟩ := (Form.parse_sound r'.method.suits.1 hparse).1 key v hv
    exact r'.method.suits.2.2.ne_token hk
  have hms : ∀ d ∈ s.paramMembers fmt, Valid d.2 := by
    intro d hd
    rcases mem_paramMembers.mp hd with ⟨-, rfl⟩ | hmem
    · exact valid_string.mpr htokenPlain
    · exact hvalues d hmem
  have hpTree : p = .node (Doc.trees (s.paramMembers fmt)) := by
    have hmem : (ascii "params", Doc.object (s.paramMembers fmt)
        (s.token ≠ [] && s.method.entries s.params = [])) ∈ s.members fmt :=
      List.mem_cons_of_mem _ (List.mem_cons_of_mem _ List.mem_cons_self)
    have hfind := find_tree s.members_nodup hmem false
    rw [ht] at hp
    rw [doc] at hp
    rw [hp] at hfind
    rw [← Doc.tree]
    exact Option.some.inj hfind
  rw [hpTree] at hparse
  have haccepts := Form.accepts_of_parse r'.method.suits.1 hnodup
    (fun d hd => mem_paramMembers.mpr (.inr hd)) hparse hms
  -- and all this holds of the same request
  have hparamsSame := hsame.params
  rw [← hsame.method] at hparamsSame
  refine ⟨⟨?_, hsame.token ▸ htokenPlain, fun hne => ?_, ?_⟩, hversionPlain⟩
  · obtain ⟨n, hn⟩ := id_eq_size hid hidValid.2
    exact ⟨n, hsame.id.eq_size hn⟩
  · have hentries := hseparator (show r'.token ≠ [] from hsame.token ▸ hne)
    obtain ⟨e, he⟩ := List.exists_mem_of_ne_nil _ hentries
    obtain ⟨key, hlt, hv, -⟩ := Method.mem_entries.mp he
    rw [← hsame.method]
    refine ⟨key, hlt, fun hnone => ?_⟩
    have hnone' : r'.params key = none := (hparamsSame.eq_none_iff hlt).mpr hnone
    exact absurd (hv.symm.trans hnone') (Option.some_ne_none _)
  · rw [← hsame.method]
    exact haccepts.congr r'.method.suits.1.needs_lt hparamsSame

/-- A restorable request is restored. -/
theorem parse_of_restorable {r : Request Double} (hr : r.Restorable fmt)
    (hversion : PlainText r.version) :
    ∃ r', parse fmt (r.toJsonString fmt) = some r' ∧ r'.Same r ∧ r'.version = r.version := by
  obtain ⟨⟨n, hid⟩, htoken, hseparator, haccepts⟩ := hr
  have hsuits := r.method.suits.1
  obtain ⟨p, hsame, hholds, hneeds⟩ := haccepts.exists_holds hsuits.needs_lt
  -- the same request, with values that are read back
  let s : Request Double := { r with params := p }
  have htext : (s.doc fmt).write = r.toJsonString fmt := by
    rw [write_doc]
    exact toJsonString_congr fmt ⟨.refl _, rfl, rfl, hsame⟩ rfl
  have hvalues : ∀ d ∈ r.method.members fmt p, Valid d.2 := Form.valid_members hholds
  have hentries : r.token ≠ [] → r.method.entries p ≠ [] := by
    intro hne hnil
    obtain ⟨key, hlt, hset⟩ := hseparator hne
    have hp : p key ≠ none := fun hnone => hset ((hsame.eq_none_iff hlt).mp hnone)
    obtain ⟨v, hv⟩ := Option.ne_none_iff_exists'.mp hp
    have hmem : (r.method.traits.getD key [], v) ∈ r.method.entries p :=
      Method.mem_entries.mpr ⟨key, hlt, hv, rfl⟩
    rw [hnil] at hmem
    exact absurd hmem List.not_mem_nil
  have hidDoc : r.id.doc fmt = .literal (decimal n.toNat) := by rw [hid, ValueType.doc]
  have hidValid : Valid (r.id.doc fmt) := hidDoc ▸ valid_decimal n.toNat
  obtain ⟨hcomplete, hplain⟩ : Valid (s.doc fmt) :=
    valid_doc.mpr ⟨hidValid, htoken, hversion, hentries, hvalues⟩
  have hread : readJson (r.toJsonString fmt) = some (s.doc fmt).tree := by
    rw [← htext]
    exact readJson_of_plainText hcomplete hplain s.tokens_doc
  -- what is found in the document
  have hfind {name : List UInt8} {d : Doc} (hmem : (name, d) ∈ s.members fmt) :
      (s.doc fmt).tree.find name = some d.tree := find_tree s.members_nodup hmem false
  have hdata : parseData (s.doc fmt).tree = some (r.id, r.version) := by
    rw [hid]
    refine parseData_written (v := .leaf r.version) ?_ ?_
    · have hfound := hfind (d := s.id.doc fmt) List.mem_cons_self
      rw [hidDoc, Doc.tree] at hfound
      exact hfound
    · have hfound := hfind (d := .string s.version) (List.mem_cons_of_mem _
        (List.mem_cons_of_mem _ (List.mem_cons_of_mem _ List.mem_cons_self)))
      rwa [Doc.tree] at hfound
  have hmethod : (s.doc fmt).tree.find (ascii "method") = some (.leaf r.method.trait) := by
    have hfound := hfind (d := .string s.method.trait)
      (List.mem_cons_of_mem _ List.mem_cons_self)
    rwa [Doc.tree] at hfound
  have hparams : (s.doc fmt).tree.find (ascii "params") =
      some (.node (Doc.trees (s.paramMembers fmt))) := by
    have hfound := hfind (d := .object (s.paramMembers fmt) _)
      (List.mem_cons_of_mem _ (List.mem_cons_of_mem _ List.mem_cons_self))
    rwa [Doc.tree] at hfound
  have hne : ∀ key < r.method.traits.length, ∀ v, p key = some v →
      r.method.traits.getD key [] ≠ ascii "Token" := by
    intro key hlt v hv
    obtain ⟨k, hk, -⟩ := hholds key hlt v hv
    exact r.method.suits.2.2.ne_token hk
  have hnodup : ((s.paramMembers fmt).map Prod.fst).Nodup := paramMembers_nodup hne
  have htokenFound : ((PTree.find (.node (Doc.trees (s.paramMembers fmt)))
      (ascii "Token")).map PTree.data).getD [] = r.token := by
    by_cases hnil : r.token = []
    · have hnone : PTree.find (.node (Doc.trees (s.paramMembers fmt))) (ascii "Token") = none := by
        refine AssocMap.find_eq_none_iff.mpr fun t hmem => ?_
        rw [PTree.children, Doc.trees_eq] at hmem
        obtain ⟨d, hd, heq⟩ := List.mem_map.mp hmem
        rcases mem_paramMembers.mp hd with ⟨hne', -⟩ | hd
        · exact hne' hnil
        · obtain ⟨e, he, rfl⟩ := List.mem_map.mp hd
          obtain ⟨key, hlt, hv, hname⟩ := Method.mem_entries.mp he
          exact hne key hlt e.2 hv (hname.symm.trans (Prod.mk.inj heq).1)
      rw [hnone, hnil]
      rfl
    · have hmem : (ascii "Token", Doc.string s.token) ∈ s.paramMembers fmt :=
        mem_paramMembers.mpr (.inl ⟨hnil, rfl⟩)
      have hfound := find_tree hnodup hmem false
      rw [Doc.tree, Doc.tree] at hfound
      rw [hfound]
      rfl
  obtain ⟨values, hparse, hvaluesSame⟩ := Form.parse_trees hsuits hnodup
    (fun d hd => mem_paramMembers.mpr (.inr hd))
    (fun d hd => (mem_paramMembers.mp hd).imp_left fun htoken =>
      ⟨congrArg Prod.fst htoken.2, r.method.suits.2.2.skips⟩) hholds hneeds
  have hname : Method.fromString r.method.trait = some r.method := by
    cases r.method <;> decide
  refine ⟨{ r with params := values }, ?_, ⟨.refl _, rfl, rfl, hvaluesSame.trans hsame⟩, rfl⟩
  rw [parse, hread]
  simp only [Option.bind_eq_bind, Option.bind_some, hdata, hmethod, PTree.data, hname, hparams,
    htokenFound]
  rw [hparse]
  rfl

end Request

/-! ## Responses -/

/-- What is restored of a response. -/
structure Response.Same (r s : Response Double) : Prop where
  id : r.id.Same s.id
  method : r.method = s.method
  error : r.error = s.error
  params : ∀ m ∈ s.method, SameParams m.traits.length r.params s.params

/-- A response is written as a JSON text, and the same response is parsed from it by a client that
knows its method. -/
def Response.Restored (fmt : DoubleFormat Double) (r : Response Double) : Prop :=
  ∃ m ∈ r.method, ∃ r', parse fmt m (r.toJsonString fmt) = some r' ∧ r'.Same r

/-- The responses that are restored. -/
structure Response.Restorable (fmt : DoubleFormat Double) (r : Response Double) : Prop where
  id : ∃ n, r.id = .size n
  params : ∃ m ∈ r.method, m.parseResponse.Accepts fmt m.traits.length r.params

namespace Response

variable (fmt) in
/-- A response without an error, written as a document. -/
def resultMembers (id : ValueType Double) (m : Method) (params : Params Double)
    (version : List UInt8) : List (List UInt8 × Doc) :=
  [(ascii "id", id.doc fmt), (ascii "result", .object (m.members fmt params) false),
    (ascii "jsonrpc", .string version)]

theorem doc_eq {r : Response Double} {m : Method} (hm : r.method = some m) (he : r.error = none) :
    r.doc fmt = .object (resultMembers fmt r.id m r.params r.version) false := by
  rw [doc, members, hm, he]
  rfl

variable (fmt) in
theorem resultMembers_nodup (id : ValueType Double) (m : Method) (params : Params Double)
    (version : List UInt8) : ((resultMembers fmt id m params version).map Prod.fst).Nodup := by
  simp only [resultMembers, List.map_cons, List.map_nil]
  decide

variable (fmt) in
theorem tokens_result (id : ValueType Double) (m : Method) (params : Params Double)
    (version : List UInt8) :
    ∀ t ∈ (Doc.object (resultMembers fmt id m params version) false).tokens,
      ∀ b ∈ t, isLiteralChar b = true := by
  rw [Doc.tokens, Doc.forall_mem_tokensMembers, resultMembers]
  simp only [List.forall_mem_cons, Doc.tokens]
  exact ⟨id.tokens_doc, Request.tokens_members, List.forall_mem_nil _, List.forall_mem_nil _⟩

/-- Nothing tells of an error. -/
theorem find_error_eq_none (id : ValueType Double) (m : Method) (params : Params Double)
    (version : List UInt8) :
    (Doc.object (resultMembers fmt id m params version) false).tree.find (ascii "error") = none := by
  refine AssocMap.find_eq_none_iff.mpr fun c hmem => ?_
  rw [Doc.tree, PTree.children, Doc.trees_eq] at hmem
  obtain ⟨d, hd, heq⟩ := List.mem_map.mp hmem
  have hname : ∀ d ∈ resultMembers fmt id m params version, d.1 ≠ ascii "error" := by
    simp only [resultMembers, List.forall_mem_cons]
    exact ⟨by decide, by decide, by decide, List.forall_mem_nil _⟩
  exact hname d hd (Prod.mk.inj heq).1

theorem valid_result {id : ValueType Double} {m : Method} {params : Params Double}
    {version : List UInt8} :
    Valid (.object (resultMembers fmt id m params version) false) ↔
      Valid (id.doc fmt) ∧ PlainText version ∧ ∀ d ∈ m.members fmt params, Valid d.2 := by
  have hnames : PlainText (ascii "id") ∧ PlainText (ascii "result") ∧
      PlainText (ascii "jsonrpc") := by decide
  have hparams : Valid (.object (m.members fmt params) false) ↔
      ∀ d ∈ m.members fmt params, Valid d.2 := by
    rw [valid_object, and_iff_right rfl]
    exact forall₂_congr fun d hd => and_iff_right (m.plainText_members params d hd)
  rw [valid_object, resultMembers]
  simp only [List.forall_mem_cons, List.not_mem_nil, valid_string, hparams, hnames, true_and]
  tauto

theorem toJsonString_congr {r : Response Double} {m : Method} (hm : r.method = some m)
    (he : r.error = none) {id : ValueType Double} {params : Params Double} (hid : id.Same r.id)
    (hparams : SameParams m.traits.length params r.params) :
    (Doc.object (resultMembers fmt id m params r.version) false).write = r.toJsonString fmt := by
  let s : Response Double := { r with id := id, params := params }
  have hdoc : s.doc fmt = .object (resultMembers fmt id m params r.version) false := doc_eq hm he
  rw [← hdoc, write_doc]
  unfold toJsonString
  rw [hm, he]
  dsimp only
  rw [m.toJsonString_congr hparams, hid.serialize]

/-- The two ways in which a response is parsed. -/
theorem parse_eq_some {text : List UInt8} {m : Method} {r : Response Double}
    (h : parse fmt m text = some r) :
    ∃ t, readJson text = some t ∧ parseData t = some (r.id, r.version) ∧ r.method = some m ∧
      ((∃ e c, t.find (ascii "error") = some e ∧ e.find (ascii "code") = some c ∧
          r.params = noParams) ∨
        (t.find (ascii "error") = none ∧ r.error = none ∧
          ∃ result, t.find (ascii "result") = some result ∧
            m.parseResponse.parse fmt m.traits result = some r.params)) := by
  rw [parse] at h
  obtain ⟨t, ht, h⟩ := Option.bind_eq_some_iff.mp h
  obtain ⟨⟨id, version⟩, hdata, h⟩ := Option.bind_eq_some_iff.mp h
  dsimp only at h
  split at h
  case h_1 e he =>
    obtain ⟨c, hc, h⟩ := Option.bind_eq_some_iff.mp h
    obtain ⟨e', -, heq⟩ := Option.bind_eq_some_iff.mp h
    obtain rfl := Option.some.inj heq
    exact ⟨t, ht, hdata, rfl, .inl ⟨e, c, he, hc, rfl⟩⟩
  case h_2 he =>
    obtain ⟨result, hresult, h⟩ := Option.bind_eq_some_iff.mp h
    obtain ⟨values, hvalues, heq⟩ := Option.bind_eq_some_iff.mp h
    obtain rfl := Option.some.inj heq
    exact ⟨t, ht, hdata, rfl, .inr ⟨he, rfl, result, hresult, hvalues⟩⟩

/-- An error weighs more than an empty result. -/
theorem covers_error {t i e c v : PTree} {id : ValueType Double} {version : List UInt8}
    (hi : t.find (ascii "id") = some i) (he : t.find (ascii "error") = some e)
    (hc : e.find (ascii "code") = some c) (hv : t.find (ascii "jsonrpc") = some v)
    (hid : Covers 0 i (id.doc fmt)) (hversion : Covers 0 v (.string version)) :
    Covers 0 t (.object [(ascii "id", id.doc fmt), (ascii "result", .object [] false),
      (ascii "jsonrpc", .string version)] false) := by
  have hcode : Covers 0 e (.object [(ascii "code", .literal [])] false) := by
    cases e with
    | leaf data => exact absurd (AssocMap.mem_of_find hc) List.not_mem_nil
    | node cs =>
      refine (covers_object ?_ (fun _ => 0) false ?_).mono (Nat.le_refl 0)
      · rw [List.map_singleton]
        exact List.nodup_singleton _
      rw [List.forall_mem_singleton]
      exact ⟨c, AssocMap.mem_of_find hc, covers_literal rfl⟩
  have hcovers : Covers 0 t (.object [(ascii "id", id.doc fmt),
      (ascii "error", .object [(ascii "code", .literal [])] false),
      (ascii "jsonrpc", .string version)] false) := by
    cases t with
    | leaf data => exact absurd (AssocMap.mem_of_find hi) List.not_mem_nil
    | node cs =>
      refine (covers_object ?_ (fun _ => 0) false ?_).mono (Nat.le_refl 0)
      · simp only [List.map_cons, List.map_nil]
        decide
      · simp only [List.forall_mem_cons]
        exact ⟨⟨i, AssocMap.mem_of_find hi, hid⟩, ⟨e, AssocMap.mem_of_find he, hcode⟩,
          ⟨v, AssocMap.mem_of_find hv, hversion⟩, List.forall_mem_nil _⟩
  have hweight : weight (ascii "result") + weight (Doc.object [] false).write ≤
      weight (ascii "error") + weight (Doc.object [(ascii "code", .literal [])] false).write := by
    rw [Doc.weight_object, Doc.weight_object]
    decide
  refine hcovers.of_weight_le ?_ fun hplain => ?_
  · rw [Doc.weight_object, Doc.weight_object]
    simp only [Doc.weightMembers, List.map_cons, List.map_nil, List.sum_cons, List.sum_nil,
      List.cons_ne_nil, if_false]
    omega
  · have hresult : Plain (ascii "result") := by decide
    simp only [Doc.strings, Doc.stringsMembers, List.forall_mem_cons, List.forall_mem_append]
      at hplain ⊢
    obtain ⟨hkey, hid, -, -, hversion⟩ := hplain
    exact ⟨hkey, hid, hresult, List.forall_mem_nil _, hversion⟩

/-- A response that is restored is restorable. -/
theorem restorable_of_parse {r r' : Response Double} {m : Method} (hm : r.method = some m)
    (he : r.error = none) (h : parse fmt m (r.toJsonString fmt) = some r') (hsame : r'.Same r)
    (hversion : r'.version = r.version ∨ r.version = ascii "2.0") :
    r.Restorable fmt ∧ PlainText r.version := by
  obtain ⟨t, hread, hdata, -, hcases⟩ := parse_eq_some h
  obtain ⟨i, v, hi, hv, hversion', hid⟩ := parseData_eq_some hdata
  have hparams := hsame.params m hm
  have hsuits := m.suits.2.1
  have htext : (Doc.object (resultMembers fmt r'.id m r'.params r.version) false).write =
      r.toJsonString fmt := toJsonString_congr hm he hsame.id hparams
  have hversionCovers : Covers 0 v (.string r.version) :=
    covers_version (hversion.imp_left fun heq => heq.symm.trans hversion')
  -- what is read covers the document, also where it tells of an error
  have hcovers : Covers 2 t
      (.object (resultMembers fmt r'.id m r'.params r.version) false) := by
    rcases hcases with ⟨e, c, he, hc, hnone⟩ | ⟨-, -, result, hresult, hparse⟩
    · have hempty : m.members fmt r'.params = [] := by
        rw [Method.members, Method.entries, hnone]
        simp [noParams]
      rw [resultMembers, hempty]
      exact (covers_error hi he hc hv (covers_id hid) hversionCovers).mono (Nat.zero_le _)
    · have hmembers : ∀ d ∈ resultMembers fmt r'.id m r'.params r.version,
          ∃ c, (d.1, c) ∈ t.children ∧ Covers (if d.1 = ascii "result" then 2 else 0) c d.2 := by
        simp only [resultMembers, List.forall_mem_cons]
        refine ⟨⟨i, AssocMap.mem_of_find hi, ?_⟩, ⟨result, AssocMap.mem_of_find hresult, ?_⟩,
          ⟨v, AssocMap.mem_of_find hv, ?_⟩, List.forall_mem_nil _⟩
        · exact (covers_id hid).mono (Nat.zero_le _)
        · rw [if_pos trivial]
          exact Form.covers_object_of_children (Form.nodup_members m r'.params)
            (Form.covers_members hsuits hparse) fun _ => rfl
        · exact hversionCovers.mono (Nat.zero_le _)
      cases t with
      | leaf data => exact absurd (AssocMap.mem_of_find hi) List.not_mem_nil
      | node cs =>
        refine (covers_object (resultMembers_nodup fmt _ _ _ _)
          (fun key => if key = ascii "result" then 2 else 0) false hmembers).mono ?_
        have hsum : ((resultMembers fmt r'.id m r'.params r.version).map
            fun d => if d.1 = ascii "result" then 2 else 0).sum = 2 := by
          show ([ascii "id", ascii "result", ascii "jsonrpc"].map
            fun key => if key = ascii "result" then 2 else 0).sum = 2
          decide
        have hne : resultMembers fmt r'.id m r'.params r.version ≠ [] := List.cons_ne_nil _ _
        rw [hsum, if_neg hne]
        decide
  obtain ⟨hcomplete, hplain, ht⟩ := plainText_of_readJson hcovers (by omega)
    (tokens_result fmt _ _ _ _) (htext ▸ hread)
  obtain ⟨hidValid, hversionPlain, hvalues⟩ := valid_result.mp ⟨hcomplete, hplain⟩
  -- hence there is no error, and the result is read as it was written
  have hnone : t.find (ascii "error") = none := by
    rw [ht]
    exact find_error_eq_none _ _ _ _
  obtain ⟨-, -, result, hresult, hparse⟩ := hcases.resolve_left (by
    rintro ⟨e, c, he', -⟩
    rw [hnone] at he'
    cases he')
  have hresultTree : result = .node (Doc.trees (m.members fmt r'.params)) := by
    have hmem : (ascii "result", Doc.object (m.members fmt r'.params) false) ∈
        resultMembers fmt r'.id m r'.params r.version :=
      List.mem_cons_of_mem _ List.mem_cons_self
    have hfind := find_tree (resultMembers_nodup fmt _ _ _ _) hmem false
    rw [ht] at hresult
    rw [hresult] at hfind
    rw [← Doc.tree]
    exact Option.some.inj hfind
  rw [hresultTree] at hparse
  have haccepts := Form.accepts_of_parse hsuits (Form.nodup_members m r'.params)
    (List.Subset.refl _) hparse hvalues
  obtain ⟨n, hn⟩ := id_eq_size hid hidValid.2
  exact ⟨⟨⟨n, hsame.id.eq_size hn⟩, m, hm, haccepts.congr hsuits.needs_lt hparams⟩, hversionPlain⟩

/-- A restorable response is restored. -/
theorem parse_of_restorable {r : Response Double} (he : r.error = none)
    (hr : r.Restorable fmt) (hversion : PlainText r.version) :
    ∃ m ∈ r.method, ∃ r', parse fmt m (r.toJsonString fmt) = some r' ∧ r'.Same r ∧
      r'.version = r.version := by
  obtain ⟨⟨n, hid⟩, m, hm, haccepts⟩ := hr
  have hsuits := m.suits.2.1
  obtain ⟨p, hsame, hholds, hneeds⟩ := haccepts.exists_holds hsuits.needs_lt
  have htext : (Doc.object (resultMembers fmt r.id m p r.version) false).write =
      r.toJsonString fmt := toJsonString_congr hm he (.refl r.id) hsame
  have hvalues : ∀ d ∈ m.members fmt p, Valid d.2 := Form.valid_members hholds
  have hidDoc : r.id.doc fmt = .literal (decimal n.toNat) := by rw [hid, ValueType.doc]
  have hidValid : Valid (r.id.doc fmt) := hidDoc ▸ valid_decimal n.toNat
  obtain ⟨hcomplete, hplain⟩ := valid_result.mpr ⟨hidValid, hversion, hvalues⟩
  have hread := readJson_of_plainText hcomplete hplain (tokens_result fmt _ _ _ _)
  rw [htext] at hread
  have hfind {name : List UInt8} {d : Doc} (hmem : (name, d) ∈ resultMembers fmt r.id m p r.version) :
      (Doc.object (resultMembers fmt r.id m p r.version) false).tree.find name = some d.tree :=
    find_tree (resultMembers_nodup fmt _ _ _ _) hmem false
  have hdata : parseData (Doc.object (resultMembers fmt r.id m p r.version) false).tree =
      some (r.id, r.version) := by
    rw [hid]
    refine parseData_written (v := .leaf r.version) ?_ ?_
    · have hfound := hfind (d := r.id.doc fmt) List.mem_cons_self
      rw [hidDoc, Doc.tree] at hfound
      rwa [← hid]
    · have hfound := hfind (d := .string r.version) (List.mem_cons_of_mem _
        (List.mem_cons_of_mem _ List.mem_cons_self))
      rw [Doc.tree] at hfound
      rwa [← hid]
  have hresult := hfind (d := .object (m.members fmt p) false)
    (List.mem_cons_of_mem _ List.mem_cons_self)
  obtain ⟨values, hparse, hvaluesSame⟩ := Form.parse_trees hsuits (Form.nodup_members m p)
    (List.Subset.refl _) (fun d hd => .inr hd) hholds hneeds
  refine ⟨m, hm, { r with params := values }, ?_, ⟨.refl _, rfl, rfl, ?_⟩, rfl⟩
  · have hnone : (Doc.object (resultMembers fmt r.id m p r.version) false).tree.find
        (ascii "error") = none := find_error_eq_none _ _ _ _
    rw [parse, hread]
    simp only [Option.bind_eq_bind, Option.bind_some, hdata, hnone]
    rw [hresult, Option.bind_some, Doc.tree, hparse, Option.bind_some, he, Option.mem_def.mp hm]
    rfl
  · rintro m' hm'
    obtain rfl : m' = m := Option.some.inj ((Option.mem_def.mp hm').symm.trans hm)
    exact hvaluesSame.trans hsame

end Response

end I2PControl
