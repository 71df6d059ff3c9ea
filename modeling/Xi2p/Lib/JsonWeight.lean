import Xi2p.Lib.JsonDocument

/-!
# What a JSON text costs

Bytes are weighed so that an escape weighs more than the character it stands for, while quotation
marks and whatever words and numbers consist of weigh nothing. A text that is read weighs at least
as much as what is read from it, and strictly more if it contains an escape.

* `cost_le_weight`: the weight of a text and the cost of the tree that is read from it.
* `Covers`: a tree costs as much as a document.
* `Covers.plain_of_readJson`: a document that is read as a tree that covers it has plain strings.
-/

namespace Json

/-! ## Weights -/

/-- The characters of words and numbers, the quotation mark and the colon. -/
def isFree (b : UInt8) : Bool :=
  isDigit b || b = quote || b = colon || b = 43 || b = 45 || b = 46 || b = 69 || b = 97 ||
    b = 101 || b = 102 || b = 108 || b = 110 || b = 114 || b = 115 || b = 116 || b = 117

/-- The weight of a byte. The last digit of the code of a backslash weighs more than others. -/
def byteWeight (b : UInt8) : ℕ :=
  if b = backslash then 6 else if b = 99 ∨ b = 67 then 3 else if isFree b then 0 else 1

def weight (text : List UInt8) : ℕ := (text.map byteWeight).sum

@[simp]
theorem weight_nil : weight [] = 0 := rfl

@[simp]
theorem weight_cons (b : UInt8) (text : List UInt8) :
    weight (b :: text) = byteWeight b + weight text := by
  simp [weight]

@[simp]
theorem weight_append (s t : List UInt8) : weight (s ++ t) = weight s + weight t := by
  simp [weight]

theorem byteWeight_facts : ∀ n : Fin 256,
    (UInt8.ofFin n ≠ backslash → byteWeight (UInt8.ofFin n) ≤ 3) ∧
      byteWeight (UInt8.ofFin n) ≤ 6 ∧
      (128 ≤ n.val → byteWeight (UInt8.ofFin n) = 1) ∧
      (hexValue (UInt8.ofFin n) = some 12 → byteWeight (UInt8.ofFin n) = 3) ∧
      (simpleEscape (UInt8.ofFin n)).all
        (fun c => decide (byteWeight c + 3 ≤ byteWeight (UInt8.ofFin n) + 6)) = true := by
  decide +kernel

theorem byteWeight_le_three {b : UInt8} (h : b ≠ backslash) : byteWeight b ≤ 3 :=
  (byteWeight_facts b.toFin).1 h

theorem byteWeight_le_six (b : UInt8) : byteWeight b ≤ 6 := (byteWeight_facts b.toFin).2.1

theorem byteWeight_ofNat {n : ℕ} (h : 128 ≤ n) (h' : n < 256) :
    byteWeight (UInt8.ofNat n) = 1 := by
  have hfact := (byteWeight_facts ⟨n, h'⟩).2.2.1 h
  have heq : UInt8.ofNat n = UInt8.ofFin ⟨n, h'⟩ := by
    apply UInt8.toNat_inj.mp
    rw [UInt8.toNat_ofNat', Nat.mod_eq_of_lt h']
    rfl
  rwa [heq]

theorem byteWeight_of_hexValue {b : UInt8} (h : hexValue b = some 12) : byteWeight b = 3 :=
  (byteWeight_facts b.toFin).2.2.2.1 h

theorem byteWeight_simpleEscape {b c : UInt8} (h : simpleEscape b = some c) :
    byteWeight c + 3 ≤ byteWeight b + 6 := by
  have hall := (byteWeight_facts b.toFin).2.2.2.2
  rw [show simpleEscape (UInt8.ofFin b.toFin) = some c from h, Option.all_some] at hall
  exact of_decide_eq_true hall

/-- The code of a character that is longer than a byte weighs as much as it is long. -/
theorem weight_utf8Encode {c : ℕ} (hc : 0x80 ≤ c) (hc' : c < 0x110000) :
    weight (utf8Encode c) ≤ 4 ∧ (c < 0x10000 → weight (utf8Encode c) ≤ 3) := by
  have hbyte {n : ℕ} (h : 128 ≤ n) (h' : n < 256) : byteWeight (UInt8.ofNat n) = 1 :=
    byteWeight_ofNat h h'
  rw [utf8Encode, if_neg (by omega)]
  split_ifs with h₂ h₃
  · simp only [weight_cons, weight_nil]
    rw [hbyte (by omega) (by omega), hbyte (by omega) (by omega)]
    omega
  · simp only [weight_cons, weight_nil]
    rw [hbyte (by omega) (by omega), hbyte (by omega) (by omega), hbyte (by omega) (by omega)]
    omega
  · simp only [weight_cons, weight_nil]
    rw [hbyte (by omega) (by omega), hbyte (by omega) (by omega), hbyte (by omega) (by omega),
      hbyte (by omega) (by omega)]
    omega

/-! ## Strings -/

theorem hexValue_lt {b : UInt8} {v : ℕ} (h : hexValue b = some v) : v < 16 := by
  have hall : ∀ n : Fin 256, ∀ v ∈ hexValue (UInt8.ofFin n), v < 16 := by decide +kernel
  exact hall b.toFin v h

/-- Four digits: the last one tells the value modulo 16. -/
theorem weight_hex4 {input rest : List UInt8} {u : ℕ} (h : hex4 input = some (u, rest)) :
    u < 0x10000 ∧ weight rest ≤ weight input ∧ (u = 92 → weight rest + 3 ≤ weight input) := by
  match input, h with
  | a :: b :: c :: d :: rest', h =>
    simp only [hex4] at h
    simp only [Option.bind_eq_bind, Option.bind_eq_some_iff] at h
    obtain ⟨va, ha, vb, hb, vc, hc, vd, hd, heq⟩ := h
    obtain ⟨rfl, rfl⟩ := Prod.mk.inj (Option.some.inj heq)
    have hva := hexValue_lt ha
    have hvb := hexValue_lt hb
    have hvc := hexValue_lt hc
    have hvd := hexValue_lt hd
    simp only [weight_cons]
    refine ⟨by omega, by omega, fun hu => ?_⟩
    have hlast : vd = 12 := by omega
    have hweight : byteWeight d = 3 := byteWeight_of_hexValue (hlast ▸ hd)
    omega

theorem weight_unicodeEscape {input rest c : List UInt8}
    (h : unicodeEscape input = some (c, rest)) :
    weight c + weight rest + 3 ≤ weight input + 6 := by
  rw [unicodeEscape] at h
  simp only [Option.bind_eq_bind, Option.bind_eq_some_iff] at h
  obtain ⟨⟨u, rest₁⟩, hu, h⟩ := h
  obtain ⟨hult, hweight, hlast⟩ := weight_hex4 hu
  dsimp only at h
  split_ifs at h with hhigh hlow
  · -- two surrogates: a second escape is used up
    split at h
    case h_2 => cases h
    case h_1 rest₂ =>
      simp only [Option.bind_eq_some_iff] at h
      obtain ⟨⟨v, rest₃⟩, hv, h⟩ := h
      obtain ⟨hvlt, hweight', -⟩ := weight_hex4 hv
      dsimp only at h
      split_ifs at h with hrange
      obtain ⟨rfl, rfl⟩ := Prod.mk.inj (Option.some.inj h)
      have hcode := (weight_utf8Encode
        (c := 0x10000 + (u - 0xd800) * 0x400 + (v - 0xdc00)) (by omega) (by omega)).1
      have hslash : byteWeight 92 = 6 := rfl
      simp only [weight_cons, hslash] at hweight
      omega
  · obtain ⟨rfl, rfl⟩ := Prod.mk.inj (Option.some.inj h)
    by_cases hascii : u < 0x80
    · have hcode : utf8Encode u = [UInt8.ofNat u] := if_pos hascii
      rw [hcode, weight_cons, weight_nil]
      by_cases hslash : u = 92
      · have := hlast hslash
        have := byteWeight_le_six (UInt8.ofNat u)
        omega
      · have hne : UInt8.ofNat u ≠ backslash := by
          intro heq
          have htoNat := congrArg UInt8.toNat heq
          rw [UInt8.toNat_ofNat', Nat.mod_eq_of_lt (by omega)] at htoNat
          exact hslash htoNat
        have := byteWeight_le_three hne
        omega
    · have hcode := (weight_utf8Encode (by omega : 0x80 ≤ u) (by omega)).2 (by omega)
      omega

/-- An escape weighs more than the characters it stands for. -/
theorem weight_escape {input rest c : List UInt8} (h : escape input = some (c, rest)) :
    weight c + weight rest + 3 ≤ weight input + 6 := by
  cases input with
  | nil => cases h
  | cons b input =>
    rw [escape] at h
    split_ifs at h with hu
    · have := weight_unicodeEscape h
      rw [weight_cons]
      omega
    · obtain ⟨c', hc, heq⟩ := Option.map_eq_some_iff.mp h
      obtain ⟨rfl, rfl⟩ := Prod.mk.inj heq
      have := byteWeight_simpleEscape hc
      simp only [weight_cons, weight_nil]
      omega

/-- The characters of a string weigh as much as its text, and less if there is an escape. -/
theorem weight_unescape {steps : ℕ} {raw s : List UInt8} (h : unescape steps raw = some s) :
    weight s ≤ weight raw ∧
      (s = raw ∧ (∀ b ∈ raw, b ≠ backslash ∧ 32 ≤ b) ∨ weight s + 3 ≤ weight raw) := by
  induction steps generalizing raw s with
  | zero =>
    cases raw with
    | nil =>
      cases h
      exact ⟨le_refl _, .inl ⟨rfl, List.forall_mem_nil _⟩⟩
    | cons b raw => cases h
  | succ steps ih =>
    cases raw with
    | nil =>
      cases h
      exact ⟨le_refl _, .inl ⟨rfl, List.forall_mem_nil _⟩⟩
    | cons b raw =>
      rw [unescape] at h
      split_ifs at h with hslash hcontrol
      · simp only [Option.bind_eq_bind, Option.bind_eq_some_iff] at h
        obtain ⟨⟨c, rest⟩, hc, t, ht, heq⟩ := h
        obtain rfl := Option.some.inj heq
        have hescape : weight c + weight rest + 3 ≤ weight raw + 6 := weight_escape hc
        have hrest : weight t ≤ weight rest := (ih ht).1
        have hweight : byteWeight b = 6 := by rw [hslash]; rfl
        show weight (c ++ t) ≤ _ ∧ (_ ∨ weight (c ++ t) + 3 ≤ _)
        rw [weight_append, weight_cons, hweight]
        omega
      · simp only [Option.bind_eq_bind, Option.bind_eq_some_iff] at h
        obtain ⟨t, ht, heq⟩ := h
        obtain rfl := Option.some.inj heq
        obtain ⟨hle, hcases⟩ := ih ht
        simp only [weight_cons]
        refine ⟨by omega, ?_⟩
        rcases hcases with ⟨rfl, hraw⟩ | hlt
        · left
          exact ⟨rfl, List.forall_mem_cons.mpr ⟨⟨hslash, UInt8.not_lt.mp hcontrol⟩, hraw⟩⟩
        · right
          omega

/-- A string without a backslash ends at its first quotation mark. -/
theorem weight_scan {input raw rest : List UInt8} (h : scan input = some (raw, rest)) :
    weight raw + weight rest ≤ weight input ∧ (backslash ∉ raw → quote ∉ raw) := by
  fun_induction scan input generalizing raw with
  | case1 => cases h
  | case2 rest' =>
    obtain ⟨rfl, rfl⟩ := Prod.mk.inj (Option.some.inj h)
    simp
  | case3 => cases h
  | case4 c rest' hquote ih =>
    obtain ⟨⟨raw', rest''⟩, hscan, heq⟩ := Option.map_eq_some_iff.mp h
    obtain ⟨rfl, rfl⟩ := Prod.mk.inj heq
    obtain ⟨hle, -⟩ := ih hscan
    simp only [weight_cons]
    exact ⟨by omega, fun hnot => absurd List.mem_cons_self hnot⟩
  | case5 b rest' hquote hslash ih =>
    obtain ⟨⟨raw', rest''⟩, hscan, heq⟩ := Option.map_eq_some_iff.mp h
    obtain ⟨rfl, rfl⟩ := Prod.mk.inj heq
    obtain ⟨hle, hraw⟩ := ih hscan
    simp only [weight_cons]
    refine ⟨by omega, fun hnot hmem => ?_⟩
    rcases List.mem_cons.mp hmem with heq | hmem
    · exact hquote heq.symm
    · exact hraw (fun hb => hnot (List.mem_cons_of_mem b hb)) hmem

/-! ## Trees -/

namespace PTree

mutual

/-- What a text weighs at least that is read as the tree. -/
def cost : PTree → ℕ
  | leaf data => weight data
  | node ms => 1 + costs ms

def costs : List (List UInt8 × PTree) → ℕ
  | [] => 0
  | (key, t) :: ms => weight key + t.cost + 1 + costs ms

end

mutual

/-- The data of a tree and the names of its children. -/
def strings : PTree → List (List UInt8)
  | leaf data => [data]
  | node ms => stringsOf ms

def stringsOf : List (List UInt8 × PTree) → List (List UInt8)
  | [] => []
  | (key, t) :: ms => key :: (t.strings ++ stringsOf ms)

end

theorem stringsOf_append (ms ns : List (List UInt8 × PTree)) :
    stringsOf (ms ++ ns) = stringsOf ms ++ stringsOf ns := by
  induction ms with
  | nil => simp [stringsOf]
  | cons m ms ih =>
    rw [List.cons_append, stringsOf, stringsOf, ih, List.cons_append, List.append_assoc]

theorem costs_append (ms ns : List (List UInt8 × PTree)) :
    costs (ms ++ ns) = costs ms + costs ns := by
  induction ms with
  | nil => simp [costs]
  | cons m ms ih =>
    rw [List.cons_append, costs, costs, ih]
    omega

end PTree

open PTree

/-- What lies between `input` and `rest` has been read at the cost `c` as the strings `ss`. -/
def Accounts (input rest : List UInt8) (c : ℕ) (ss : List (List UInt8)) : Prop :=
  weight rest + c ≤ weight input ∧
    ((∀ s ∈ ss, Plain s) ∨ weight rest + c + 3 ≤ weight input)

theorem Accounts.trans {a b c : List UInt8} {m n : ℕ} {ss ts : List (List UInt8)}
    (h : Accounts a b m ss) (h' : Accounts b c n ts) : Accounts a c (m + n) (ss ++ ts) := by
  obtain ⟨hle, hplain⟩ := h
  obtain ⟨hle', hplain'⟩ := h'
  refine ⟨by omega, ?_⟩
  rcases hplain with hplain | hplain
  · rcases hplain' with hplain' | hplain'
    · exact .inl (List.forall_mem_append.mpr ⟨hplain, hplain'⟩)
    · right
      omega
  · right
    omega

/-- Less is accounted for, in another order. -/
theorem Accounts.mono {a b : List UInt8} {m n : ℕ} {ss ts : List (List UInt8)}
    (h : Accounts a b m ss) (hle : n ≤ m) (hsub : ts ⊆ ss) : Accounts a b n ts := by
  obtain ⟨hweight, hplain⟩ := h
  refine ⟨by omega, hplain.imp (fun hs t ht => hs t (hsub ht)) (fun hlt => by omega)⟩

theorem weight_dropWhile_le (p : UInt8 → Bool) (text : List UInt8) :
    weight (text.dropWhile p) ≤ weight text := by
  have hsplit := congrArg weight (List.takeWhile_append_dropWhile (p := p) (l := text))
  rw [weight_append] at hsplit
  omega

theorem accounts_skipBlanks (input : List UInt8) : Accounts input (skipBlanks input) 0 [] :=
  ⟨weight_dropWhile_le isBlank input, .inl (List.forall_mem_nil _)⟩

theorem accounts_expect {b : UInt8} {input rest : List UInt8} (h : expect b input = some rest) :
    Accounts input rest (byteWeight b) [] := by
  have hle := weight_dropWhile_le isBlank input
  rw [expect, skipBlanks] at h
  refine ⟨?_, .inl (List.forall_mem_nil _)⟩
  split at h
  case h_1 c rest' heq =>
    split_ifs at h with hc
    obtain rfl := Option.some.inj h
    rw [heq, weight_cons, hc] at hle
    omega
  case h_2 => cases h

theorem accounts_string {input s rest : List UInt8} (h : string input = some (s, rest)) :
    Accounts input rest (weight s) [s] := by
  rw [string] at h
  simp only [Option.bind_eq_bind, Option.bind_eq_some_iff] at h
  obtain ⟨⟨raw, rest'⟩, hscan, t, hunescape, heq⟩ := h
  obtain ⟨rfl, rfl⟩ := Prod.mk.inj (Option.some.inj heq)
  obtain ⟨hweight, hquote⟩ := weight_scan hscan
  obtain ⟨hle, hcases⟩ := weight_unescape hunescape
  dsimp only at hle hcases ⊢
  refine ⟨by omega, ?_⟩
  rcases hcases with ⟨hsame, hraw⟩ | hlt
  · left
    rw [List.forall_mem_singleton, hsame]
    have hnot := hquote fun hmem => (hraw backslash hmem).1 rfl
    exact fun b hb => ⟨fun heq => hnot (heq ▸ hb), hraw b hb⟩
  · right
    omega

theorem plain_of_isLiteralChar {token : List UInt8} (h : ∀ b ∈ token, isLiteralChar b = true) :
    Plain token := by
  have hall : ∀ n : Fin 256, isLiteralChar (UInt8.ofFin n) = true →
      UInt8.ofFin n ≠ quote ∧ UInt8.ofFin n ≠ backslash ∧ 32 ≤ UInt8.ofFin n := by
    decide +kernel
  exact fun b hb => hall b.toFin (h b hb)

theorem accounts_literal {input rest : List UInt8} {t : PTree}
    (h : literal input = some (t, rest)) : Accounts input rest t.cost t.strings := by
  rw [literal] at h
  split_ifs at h
  obtain ⟨rfl, rfl⟩ := Prod.mk.inj (Option.some.inj h)
  have hsplit := congrArg weight
    (List.takeWhile_append_dropWhile (p := isLiteralChar) (l := input))
  rw [weight_append] at hsplit
  refine ⟨?_, .inl ?_⟩
  · rw [cost]
    omega
  · rw [strings, List.forall_mem_singleton]
    exact plain_of_isLiteralChar fun b hb => List.mem_takeWhile_imp hb

theorem byteWeight_punctuation : byteWeight comma = 1 ∧ byteWeight openBrace = 1 ∧
    byteWeight closeBrace = 1 ∧ byteWeight openBracket = 1 ∧ byteWeight closeBracket = 1 ∧
    byteWeight quote = 0 ∧ byteWeight colon = 0 := by decide

/-- A value, if members and elements with less fuel are paid for. -/
theorem accounts_value_of {fuel : ℕ}
    (hmembers : ∀ {input ms rest}, members fuel input = some (ms, rest) →
      Accounts input rest (costs ms) (stringsOf ms))
    (helements : ∀ {input ms rest}, elements fuel input = some (ms, rest) →
      Accounts input rest (costs ms) (stringsOf ms))
    {input rest : List UInt8} {t : PTree} (h : value (fuel + 1) input = some (t, rest)) :
    Accounts input rest t.cost t.strings := by
  obtain ⟨-, hopen, -, hopen', -, -, -⟩ := byteWeight_punctuation
  -- an object or an array: its children, or nothing, behind the opening bracket
  have hnode {b c : UInt8} {input₁ rest : List UInt8} {ms : List (List UInt8 × PTree)}
      (hb : byteWeight b = 1) (hexpect : expect b input = some input₁)
      (hms : expect c input₁ = some rest ∧ ms = [] ∨
        Accounts input₁ rest (costs ms) (stringsOf ms)) :
      Accounts input rest (node ms).cost (node ms).strings := by
    have hstart := accounts_expect hexpect
    rw [hb] at hstart
    rcases hms with ⟨hend, rfl⟩ | hms
    · exact (hstart.trans (accounts_expect hend)).mono (by simp [cost, costs]) (by simp [strings, stringsOf])
    · exact hstart.trans hms
  rw [value] at h
  split at h
  case h_1 input₁ hbrace =>
    split at h
    case h_1 rest' hend =>
      obtain ⟨rfl, rfl⟩ := Prod.mk.inj (Option.some.inj h)
      exact hnode hopen hbrace (.inl ⟨hend, rfl⟩)
    case h_2 =>
      obtain ⟨⟨ms, rest'⟩, hms, heq⟩ := Option.map_eq_some_iff.mp h
      obtain ⟨rfl, rfl⟩ := Prod.mk.inj heq
      exact hnode (c := 0) hopen hbrace (.inr (hmembers hms))
  case h_2 =>
    split at h
    case h_1 input₁ hbracket =>
      split at h
      case h_1 rest' hend =>
        obtain ⟨rfl, rfl⟩ := Prod.mk.inj (Option.some.inj h)
        exact hnode hopen' hbracket (.inl ⟨hend, rfl⟩)
      case h_2 =>
        obtain ⟨⟨ms, rest'⟩, hms, heq⟩ := Option.map_eq_some_iff.mp h
        obtain ⟨rfl, rfl⟩ := Prod.mk.inj heq
        exact hnode (c := 0) hopen' hbracket (.inr (helements hms))
    case h_2 =>
      split at h
      case h_1 input₁ hquote =>
        obtain ⟨⟨s, rest'⟩, hs, heq⟩ := Option.map_eq_some_iff.mp h
        obtain ⟨rfl, rfl⟩ := Prod.mk.inj heq
        exact ((accounts_expect hquote).trans (accounts_string hs)).mono
          (Nat.le_add_left _ _) (List.Subset.refl _)
      case h_2 =>
        exact ((accounts_skipBlanks input).trans (accounts_literal h)).mono
          (Nat.le_add_left _ _) (List.Subset.refl _)

/-- The end of a list of members or elements: the first one, and the others behind a comma. -/
theorem accounts_last {b : UInt8} {input input₁ rest : List UInt8} {c : ℕ}
    {ss : List (List UInt8)} (h : Accounts input input₁ c ss) (hb : byteWeight b = 1)
    (hend : expect b input₁ = some rest) : Accounts input rest (c + 1 + 0) (ss ++ []) :=
  (h.trans (accounts_expect hend)).mono (by omega) (List.Subset.refl _)

theorem accounts_more {input input₁ input₂ rest : List UInt8} {c : ℕ} {ss : List (List UInt8)}
    {ms : List (List UInt8 × PTree)} (h : Accounts input input₁ c ss)
    (hcomma : expect comma input₁ = some input₂)
    (hms : Accounts input₂ rest (costs ms) (stringsOf ms)) :
    Accounts input rest (c + 1 + costs ms) (ss ++ stringsOf ms) := by
  have hpaid := (h.trans (accounts_expect hcomma)).trans hms
  rwa [List.append_nil, byteWeight_punctuation.1] at hpaid

/-- What is read is paid for; if there is an escape, something is left. -/
theorem accounts_value (fuel : ℕ) :
    (∀ {input t rest}, value fuel input = some (t, rest) →
      Accounts input rest t.cost t.strings) ∧
    (∀ {input ms rest}, members fuel input = some (ms, rest) →
      Accounts input rest (costs ms) (stringsOf ms)) ∧
    ∀ {input ms rest}, elements fuel input = some (ms, rest) →
      Accounts input rest (costs ms) (stringsOf ms) := by
  obtain ⟨-, -, hbrace, -, hbracket, -, -⟩ := byteWeight_punctuation
  induction fuel with
  | zero => exact ⟨fun h => (by cases h), fun h => (by cases h), fun h => by cases h⟩
  | succ fuel ih =>
    obtain ⟨ihvalue, ihmembers, ihelements⟩ := ih
    refine ⟨fun h => accounts_value_of ihmembers ihelements h, ?_, ?_⟩
    · intro input ms rest h
      rw [members] at h
      simp only [Option.bind_eq_bind, Option.bind_eq_some_iff] at h
      obtain ⟨input₁, hquote, ⟨key, input₂⟩, hkey, input₃, hcolon, ⟨t, input₄⟩, ht, h⟩ := h
      -- name, colon and value
      have hmember : Accounts input input₄ (weight key + t.cost) (key :: t.strings) :=
        ((((accounts_expect hquote).trans (accounts_string hkey)).trans
          (accounts_expect hcolon)).trans (ihvalue ht)).mono (by omega)
          (by simp)
      split at h
      case h_1 input₅ hcomma =>
        simp only [Option.bind_eq_some_iff] at h
        obtain ⟨⟨ms', rest'⟩, hms, heq⟩ := h
        obtain ⟨rfl, rfl⟩ := Prod.mk.inj (Option.some.inj heq)
        exact accounts_more hmember hcomma (ihmembers hms)
      case h_2 =>
        simp only [Option.bind_eq_some_iff] at h
        obtain ⟨rest', hend, heq⟩ := h
        obtain ⟨rfl, rfl⟩ := Prod.mk.inj (Option.some.inj heq)
        exact accounts_last hmember hbrace hend
    · intro input ms rest h
      rw [elements] at h
      simp only [Option.bind_eq_bind, Option.bind_eq_some_iff] at h
      obtain ⟨⟨t, input₁⟩, ht, h⟩ := h
      have hnil : Accounts input input 0 [[]] :=
        ⟨le_refl _, .inl (List.forall_mem_singleton.mpr (List.forall_mem_nil _))⟩
      have helement : Accounts input input₁ (weight [] + t.cost) ([] :: t.strings) :=
        hnil.trans (ihvalue ht)
      split at h
      case h_1 input₂ hcomma =>
        simp only [Option.bind_eq_some_iff] at h
        obtain ⟨⟨ms', rest'⟩, hms, heq⟩ := h
        obtain ⟨rfl, rfl⟩ := Prod.mk.inj (Option.some.inj heq)
        exact accounts_more helement hcomma (ihelements hms)
      case h_2 =>
        simp only [Option.bind_eq_some_iff] at h
        obtain ⟨rest', hend, heq⟩ := h
        obtain ⟨rfl, rfl⟩ := Prod.mk.inj (Option.some.inj heq)
        exact accounts_last helement hbracket hend

/-- A text weighs as much as its tree costs, and at least three more if it contains an escape. -/
theorem cost_le_weight {text : List UInt8} {t : PTree} (h : readJson text = some t) :
    IsUtf8 text ∧ t.cost ≤ weight text ∧
      ((∀ s ∈ t.strings, Plain s) ∨ t.cost + 3 ≤ weight text) := by
  rw [readJson] at h
  split_ifs at h with hutf8
  simp only [Option.bind_eq_bind, Option.bind_eq_some_iff] at h
  obtain ⟨⟨t', rest⟩, hvalue, h⟩ := h
  obtain ⟨hle, hplain⟩ := (accounts_value _).1 hvalue
  split_ifs at h
  obtain rfl : t' = t := Option.some.inj h
  refine ⟨hutf8, by omega, hplain.imp_right fun hlt => by omega⟩

/-! ## Documents that are covered -/

/-- The tree costs as much as the document weighs, up to `n`, and holds its strings. -/
structure Covers (n : ℕ) (t : PTree) (d : Doc) : Prop where
  weight_le : weight d.write ≤ t.cost + n
  plain : (∀ s ∈ t.strings, Plain s) → ∀ s ∈ d.strings, Plain s

/-- Text and tree tell that nothing in the document has a meaning. -/
theorem Covers.plain_of_readJson {n : ℕ} {t : PTree} {d : Doc} (h : Covers n t d) (hn : n < 3)
    (hread : readJson d.write = some t) : ∀ s ∈ d.strings, Plain s := by
  obtain ⟨-, -, hplain⟩ := cost_le_weight hread
  have hweight := h.weight_le
  exact h.plain (hplain.resolve_right (by omega))

theorem Covers.mono {m n : ℕ} {t : PTree} {d : Doc} (h : Covers m t d) (hle : m ≤ n) :
    Covers n t d := ⟨h.weight_le.trans (Nat.add_le_add_left hle _), h.plain⟩

/-- A lighter document with the same strings, or fewer. -/
theorem Covers.of_weight_le {n : ℕ} {t : PTree} {d d' : Doc} (h : Covers n t d)
    (hweight : weight d'.write ≤ weight d.write)
    (hplain : (∀ s ∈ d.strings, Plain s) → ∀ s ∈ d'.strings, Plain s) : Covers n t d' :=
  ⟨hweight.trans h.weight_le, fun ht => hplain (h.plain ht)⟩

namespace Doc

/-- The members of an object, each with the comma or the brace behind it. -/
def weightMembers (ms : List (List UInt8 × Doc)) : ℕ :=
  (ms.map fun m => weight m.1 + weight m.2.write + 1).sum

theorem weight_writeMembers (ms : List (List UInt8 × Doc)) :
    weight (writeMembers ms) = weightMembers ms := by
  obtain ⟨hcomma, -, -, -, -, hquote, hcolon⟩ := byteWeight_punctuation
  induction ms with
  | nil => rfl
  | cons m ms ih =>
    obtain ⟨key, d⟩ := m
    simp only [writeMembers, weight_cons, weight_append, ih, hcomma, hquote, hcolon,
      weightMembers, List.map_cons, List.sum_cons]
    omega

/-- An object weighs what its members weigh, and one more if there is none or a comma too many. -/
theorem weight_object (ms : List (List UInt8 × Doc)) (c : Bool) :
    weight (object ms c).write =
      1 + weightMembers ms + (if ms = [] then 1 else 0) + (if c then 1 else 0) := by
  obtain ⟨hcomma, hopen, hclose, -, -, hquote, hcolon⟩ := byteWeight_punctuation
  have hclosing : weight (closing c) = 1 + if c then 1 else 0 := by cases c <;> decide
  cases ms with
  | nil =>
    simp only [write, weight_cons, hclosing, hopen, weightMembers, List.map_nil, List.sum_nil,
      if_true]
    omega
  | cons m ms =>
    obtain ⟨key, d⟩ := m
    simp only [write, weight_cons, weight_append, weight_writeMembers, hclosing, hopen, hquote,
      hcolon, weightMembers, List.map_cons, List.sum_cons, List.cons_ne_nil, if_false]
    omega

end Doc

/-- Members with different names, each covered by a child of its name. -/
theorem covers_members {ms : List (List UInt8 × Doc)} (hnodup : (ms.map Prod.fst).Nodup)
    {cs : List (List UInt8 × PTree)} (n : List UInt8 → ℕ)
    (h : ∀ m ∈ ms, ∃ t, (m.1, t) ∈ cs ∧ Covers (n m.1) t m.2) :
    Doc.weightMembers ms ≤ costs cs + (ms.map fun m => n m.1).sum ∧
      ((∀ s ∈ stringsOf cs, Plain s) → ∀ s ∈ Doc.stringsMembers ms, Plain s) := by
  induction ms generalizing cs with
  | nil => exact ⟨Nat.zero_le _, fun _ => List.forall_mem_nil _⟩
  | cons m ms ih =>
    obtain ⟨key, d⟩ := m
    rw [List.map_cons, List.nodup_cons] at hnodup
    obtain ⟨t, hmem, hcovers⟩ := h (key, d) List.mem_cons_self
    obtain ⟨front, back, rfl⟩ := List.append_of_mem hmem
    -- the other members are covered by other children
    have hothers : ∀ m ∈ ms, ∃ t, (m.1, t) ∈ front ++ back ∧ Covers (n m.1) t m.2 := by
      intro m hm
      obtain ⟨t', hmem', hcovers'⟩ := h m (List.mem_cons_of_mem _ hm)
      refine ⟨t', ?_, hcovers'⟩
      rcases List.mem_append.mp hmem' with hfront | hback
      · exact List.mem_append_left _ hfront
      · rcases List.mem_cons.mp hback with heq | hback
        · have hkey : m.1 = key := congrArg Prod.fst heq
          have hmem : m.1 ∈ ms.map Prod.fst := List.mem_map_of_mem hm
          exact absurd (hkey ▸ hmem) hnodup.1
        · exact List.mem_append_right _ hback
    obtain ⟨hweight, hplain⟩ := ih hnodup.2 hothers
    have hd : weight d.write ≤ t.cost + n key := hcovers.weight_le
    constructor
    · simp only [Doc.weightMembers, costs_append, costs, List.map_cons, List.sum_cons]
        at hweight ⊢
      omega
    · intro hcs
      rw [stringsOf_append, stringsOf, List.forall_mem_append, List.forall_mem_cons,
        List.forall_mem_append] at hcs
      obtain ⟨hfront, hkey, ht, hback⟩ := hcs
      have hrest := hplain (by
        rw [stringsOf_append]
        exact List.forall_mem_append.mpr ⟨hfront, hback⟩)
      rw [Doc.stringsMembers, List.forall_mem_cons, List.forall_mem_append]
      exact ⟨hkey, hcovers.plain ht, hrest⟩

/-- An object is covered by a node with children for all of its members. -/
theorem covers_object {ms : List (List UInt8 × Doc)} (hnodup : (ms.map Prod.fst).Nodup)
    {cs : List (List UInt8 × PTree)} (n : List UInt8 → ℕ) (c : Bool)
    (h : ∀ m ∈ ms, ∃ t, (m.1, t) ∈ cs ∧ Covers (n m.1) t m.2) :
    Covers ((ms.map fun m => n m.1).sum + (if ms = [] then 1 else 0) + if c then 1 else 0)
      (.node cs) (.object ms c) := by
  obtain ⟨hweight, hplain⟩ := covers_members hnodup n h
  refine ⟨?_, fun ht => ?_⟩
  · rw [Doc.weight_object, cost]
    omega
  · rw [Doc.strings]
    rw [strings] at ht
    exact hplain ht

end Json
