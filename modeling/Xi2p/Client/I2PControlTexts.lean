import Xi2p.Client.I2PControl
import Xi2p.Lib.JsonWeight

/-!
# The texts of I2PControl as documents

Requests and responses are documents in the sense of `Json.Doc`; what is known of documents then
holds of the texts that are put together by hand.

* `Request.write_doc`, `Response.write_doc`: the documents and the texts.
* `Kind.covers_of_read`: a value that is read costs as much as it weighs when it is written.
* `JsonObject.clean_ofTree`, `JsonObject.toString_ofTree`: JSON objects that are read back.
-/

namespace I2PControl

open Json Text

/-! ## Words and numbers -/

theorem decimal_of_lt {n : ℕ} (h : n < 10) : decimal n = [UInt8.ofNat (48 + n)] := by
  rw [decimal, Nat.toDigits_of_lt_base h, List.map_singleton, Nat.toNat_digitChar_of_lt_ten h]

theorem decimal_of_le {n : ℕ} (h : 10 ≤ n) :
    decimal n = decimal (n / 10) ++ [UInt8.ofNat (48 + n % 10)] := by
  rw [decimal, Nat.toDigits_of_base_le (by omega) h, List.map_append, List.map_singleton,
    Nat.toNat_digitChar_of_lt_ten (Nat.mod_lt _ (by omega)), ← decimal]

theorem toNat_digit {d : ℕ} (h : d < 10) : (UInt8.ofNat (48 + d)).toNat = 48 + d := by
  rw [UInt8.toNat_ofNat', Nat.mod_eq_of_lt (by omega)]

theorem isDigit_iff {b : UInt8} : Json.isDigit b = true ↔ 48 ≤ b ∧ b ≤ 57 := by
  rw [Json.isDigit, Bool.and_eq_true, decide_eq_true_eq, decide_eq_true_eq]

theorem isDigit_digit {d : ℕ} (h : d < 10) : Json.isDigit (UInt8.ofNat (48 + d)) = true := by
  rw [isDigit_iff, UInt8.le_iff_toNat_le, UInt8.le_iff_toNat_le, toNat_digit h]
  show 48 ≤ 48 + d ∧ 48 + d ≤ 57
  omega

theorem isDigit_decimal (n : ℕ) : ∀ b ∈ decimal n, Json.isDigit b = true := by
  induction n using Nat.strong_induction_on with
  | _ n ih =>
    by_cases hlt : n < 10
    · rw [decimal_of_lt hlt, List.forall_mem_singleton]
      exact isDigit_digit hlt
    · rw [decimal_of_le (by omega), List.forall_mem_append, List.forall_mem_singleton]
      exact ⟨ih (n / 10) (by omega), isDigit_digit (Nat.mod_lt _ (by omega))⟩

theorem decimal_ne_nil (n : ℕ) : decimal n ≠ [] := by
  rw [decimal, ne_eq, List.map_eq_nil_iff]
  exact Nat.toDigits_ne_nil

/-- A number is written without needless zeros. -/
theorem head_decimal {n : ℕ} (h : n ≠ 0) : (decimal n).head? ≠ some 48 := by
  induction n using Nat.strong_induction_on with
  | _ n ih =>
    by_cases hlt : n < 10
    · rw [decimal_of_lt hlt]
      intro heq
      have hnat := congrArg UInt8.toNat (Option.some.inj heq)
      rw [toNat_digit hlt] at hnat
      have hzero : 48 + n = 48 := hnat
      omega
    · rw [decimal_of_le (by omega), List.head?_append_of_ne_nil _ (decimal_ne_nil _)]
      exact ih (n / 10) (by omega) (by omega)

/-- The digits of a number, read from the left. -/
theorem foldl_decimal (n : ℕ) :
    (decimal n).foldl (fun v b => v * 10 + (b.toNat - 48)) 0 = n := by
  induction n using Nat.strong_induction_on with
  | _ n ih =>
    by_cases hlt : n < 10
    · rw [decimal_of_lt hlt, List.foldl_cons, List.foldl_nil, toNat_digit hlt]
      omega
    · rw [decimal_of_le (by omega), List.foldl_append, ih (n / 10) (by omega), List.foldl_cons,
        List.foldl_nil, toNat_digit (Nat.mod_lt _ (by omega))]
      omega

theorem takeWhile_isDigit {s : List UInt8} (h : ∀ b ∈ s, Json.isDigit b = true) :
    s.takeWhile Json.isDigit = s ∧ s.dropWhile Json.isDigit = [] := by
  refine ⟨List.takeWhile_eq_self_iff.mpr h, List.dropWhile_eq_nil_iff.mpr h⟩

/-- A list of digits has no sign. -/
theorem dropSign_of_isDigit {signs s : List UInt8} (h : ∀ b ∈ s, Json.isDigit b = true)
    (hsigns : ∀ b ∈ signs, Json.isDigit b = false) : dropSign signs s = s := by
  cases s with
  | nil => rfl
  | cons b s =>
    have hb : b ∉ signs := fun hmem => by
      have hdigit := h b List.mem_cons_self
      rw [hsigns b hmem] at hdigit
      cases hdigit
    rw [dropSign, if_neg hb]

theorem isNumber_decimal (n : ℕ) : isNumber (decimal n) = true := by
  obtain ⟨htake, hdrop⟩ := takeWhile_isDigit (isDigit_decimal n)
  rw [isNumber, dropSign_of_isDigit (isDigit_decimal n) (by decide +kernel)]
  simp only [htake, hdrop, isFraction, isExponent, Bool.and_true]
  by_cases hzero : n = 0
  · rw [hzero]
    decide
  · simp [decimal_ne_nil, head_decimal hzero]

theorem isLiteral_of_isNumber {s : List UInt8} (h : isNumber s = true) : isLiteral s = true := by
  rw [isLiteral, h, Bool.or_true]

/-- The characters of words and numbers that are written. -/
theorem isLiteralChar_of_isDigit {b : UInt8} (h : Json.isDigit b = true) :
    isLiteralChar b = true ∧ byteWeight b = 0 ∧ isSpace b = false ∧ b ≠ 43 ∧ b ≠ 45 := by
  have hall : ∀ n : Fin 256, Json.isDigit (UInt8.ofFin n) = true →
      isLiteralChar (UInt8.ofFin n) = true ∧ byteWeight (UInt8.ofFin n) = 0 ∧
        isSpace (UInt8.ofFin n) = false ∧ UInt8.ofFin n ≠ 43 ∧ UInt8.ofFin n ≠ 45 := by
    decide +kernel
  exact hall b.toFin h

theorem weight_eq_zero {s : List UInt8} (h : ∀ b ∈ s, byteWeight b = 0) : weight s = 0 := by
  induction s with
  | nil => rfl
  | cons b s ih =>
    rw [weight_cons, h b List.mem_cons_self, ih fun c hc => h c (List.mem_cons_of_mem b hc)]

theorem weight_decimal (n : ℕ) : weight (decimal n) = 0 :=
  weight_eq_zero fun b hb => (isLiteralChar_of_isDigit (isDigit_decimal n b hb)).2.1

/-- Nothing is trimmed from a number. -/
theorem trim_of_isDigit {s : List UInt8} (h : ∀ b ∈ s, Json.isDigit b = true) : trim s = s := by
  have hspace : ∀ b ∈ s, isSpace b = false := fun b hb =>
    (isLiteralChar_of_isDigit (h b hb)).2.2.1
  have hleft : trimLeft s = s := by
    cases s with
    | nil => rfl
    | cons b s => exact List.dropWhile_cons_of_neg (by simp [hspace b List.mem_cons_self])
  rw [trim, hleft, List.rdropWhile_eq_self_iff]
  intro hne
  simp [hspace _ (List.getLast_mem hne)]

theorem digits_decimal {bits n : ℕ} (h : n < 2 ^ bits) : Text.digits bits (decimal n) = some n := by
  have hdigits : ∀ b ∈ decimal n, 48 ≤ b ∧ b ≤ 57 := fun b hb =>
    isDigit_iff.mp (isDigit_decimal n b hb)
  rw [Text.digits, if_pos ⟨decimal_ne_nil n, hdigits⟩]
  dsimp only
  rw [foldl_decimal, if_pos h]

theorem readSize_decimal (n : UInt64) : readSize (decimal n.toNat) = some n := by
  have hdigit := isDigit_decimal n.toNat
  have hcast : lexicalCast 64 (decimal n.toNat) = some n.toNat := by
    rw [lexicalCast.eq_def]
    split
    case h_1 s heq =>
      have hmem : (45 : UInt8) ∈ decimal n.toNat := by
        rw [heq]
        exact List.mem_cons_self
      exact absurd rfl (isLiteralChar_of_isDigit (hdigit _ hmem)).2.2.2.2
    case h_2 s heq =>
      have hmem : (43 : UInt8) ∈ decimal n.toNat := by
        rw [heq]
        exact List.mem_cons_self
      exact absurd rfl (isLiteralChar_of_isDigit (hdigit _ hmem)).2.2.2.1
    case h_3 => exact digits_decimal n.toNat_lt
  rw [readSize, trim_of_isDigit hdigit, hcast]
  exact congrArg some UInt64.ofNat_toNat

/-! ## JSON objects -/

/-- A text in UTF-8 that stands for itself between quotation marks. -/
def PlainText (s : List UInt8) : Prop := Plain s ∧ IsUtf8 s

instance (s : List UInt8) : Decidable (PlainText s) := inferInstanceAs (Decidable (_ ∧ _))

namespace JsonObject

mutual

/-- A JSON object as a document. -/
def doc : JsonObject → Doc
  | mk [] none => .literal []
  | mk [] (some s) => .string s
  | mk ((key, j) :: cs) _ => .object ((key, j.doc) :: docs cs) false

def docs : List (List UInt8 × JsonObject) → List (List UInt8 × Doc)
  | [] => []
  | (key, j) :: cs => (key, j.doc) :: docs cs

end

mutual

/-- An object that its text tells: no value is missing, none is the word for a missing one, and
all strings are plain. The names of children ascend, as they do in every map. -/
def Clean : JsonObject → Prop
  | mk [] none => False
  | mk [] (some s) => PlainText s ∧ s ≠ ascii "null"
  | mk (c :: cs) _ => ((c :: cs).map Prod.fst).Pairwise before ∧ AllClean (c :: cs)

def AllClean : List (List UInt8 × JsonObject) → Prop
  | [] => True
  | (key, j) :: cs => PlainText key ∧ j.Clean ∧ AllClean cs

end

theorem docs_eq (cs : List (List UInt8 × JsonObject)) : docs cs = cs.map fun c => (c.1, c.2.doc) := by
  induction cs with
  | nil => rfl
  | cons c cs ih => rw [docs, ih, List.map_cons]

theorem allClean_iff {cs : List (List UInt8 × JsonObject)} :
    AllClean cs ↔ ∀ c ∈ cs, PlainText c.1 ∧ c.2.Clean := by
  induction cs with
  | nil => simp [AllClean]
  | cons c cs ih => rw [AllClean, ih, List.forall_mem_cons, and_assoc]

theorem doc_cons (c : List UInt8 × JsonObject) (cs : List (List UInt8 × JsonObject))
    (value : Option (List UInt8)) : (mk (c :: cs) value).doc = .object (docs (c :: cs)) false := by
  rw [doc, docs]

mutual

theorem write_doc : ∀ j : JsonObject, j.doc.write = j.toString
  | mk [] none => by rw [doc, toString, Doc.write]
  | mk [] (some s) => by rw [doc, toString, Doc.write, quoted]
  | mk ((key, j) :: cs) _ => by
    rw [doc, toString, Doc.write, write_doc j, write_docs cs]
    simp [quoted, Doc.closing]

theorem write_docs : ∀ cs : List (List UInt8 × JsonObject),
    Doc.writeMembers (docs cs) = toStrings cs
  | [] => by rw [docs, toStrings, Doc.writeMembers]
  | (key, j) :: cs => by
    rw [docs, toStrings, Doc.writeMembers, write_doc j, write_docs cs]
    simp [quoted]

end

mutual

/-- There are no words or numbers in an object, only values that are missing. -/
theorem tokens_doc : ∀ j : JsonObject, ∀ t ∈ j.doc.tokens, t = []
  | mk [] none => by simp [doc, Doc.tokens]
  | mk [] (some s) => by simp [doc, Doc.tokens]
  | mk ((key, j) :: cs) _ => by
    rw [doc, Doc.tokens, Doc.tokensMembers, List.forall_mem_append]
    exact ⟨tokens_doc j, tokens_docs cs⟩

theorem tokens_docs : ∀ cs : List (List UInt8 × JsonObject),
    ∀ t ∈ Doc.tokensMembers (docs cs), t = []
  | [] => by simp [docs, Doc.tokensMembers]
  | (key, j) :: cs => by
    rw [docs, Doc.tokensMembers, List.forall_mem_append]
    exact ⟨tokens_doc j, tokens_docs cs⟩

end

mutual

/-- The text of a clean object is a JSON text. -/
theorem Clean.doc : ∀ {j : JsonObject}, j.Clean →
    j.doc.isComplete = true ∧ ∀ s ∈ j.doc.strings, PlainText s
  | mk [] none, h => by
    rw [Clean] at h
    exact h.elim
  | mk [] (some s), h => by
    rw [Clean] at h
    rw [JsonObject.doc, Doc.isComplete, Doc.strings, List.forall_mem_singleton]
    exact ⟨rfl, h.1⟩
  | mk ((key, j) :: cs) _, h => by
    rw [Clean, AllClean] at h
    obtain ⟨-, hkey, hj, hcs⟩ := h
    obtain ⟨hcomplete, hstrings⟩ := hj.doc
    obtain ⟨hcomplete', hstrings'⟩ := hcs.docs
    rw [JsonObject.doc, Doc.isComplete, Doc.areComplete, hcomplete, hcomplete', Doc.strings,
      Doc.stringsMembers, List.forall_mem_cons, List.forall_mem_append]
    exact ⟨rfl, hkey, hstrings, hstrings'⟩

theorem AllClean.docs : ∀ {cs : List (List UInt8 × JsonObject)}, AllClean cs →
    Doc.areComplete (docs cs) = true ∧ ∀ s ∈ Doc.stringsMembers (docs cs), PlainText s
  | [], _ => by simp [JsonObject.docs, Doc.areComplete, Doc.stringsMembers]
  | (key, j) :: cs, h => by
    rw [AllClean] at h
    obtain ⟨hkey, hj, hcs⟩ := h
    obtain ⟨hcomplete, hstrings⟩ := hj.doc
    obtain ⟨hcomplete', hstrings'⟩ := hcs.docs
    rw [JsonObject.docs, Doc.areComplete, hcomplete, hcomplete', Doc.stringsMembers,
      List.forall_mem_cons, List.forall_mem_append]
    exact ⟨rfl, hkey, hstrings, hstrings'⟩

end

/-! ### Objects that are read -/

theorem before_trans {a b c : List UInt8} (h : before a b) (h' : before b c) : before a c :=
  lt_trans (a := a.map UInt8.toNat) h h'

theorem before_irrefl (a : List UInt8) : ¬ before a a := lt_irrefl (a.map UInt8.toNat)

/-- Two different names: one of them comes first. -/
theorem before_of_not_before {a b : List UInt8} (hne : a ≠ b) (h : ¬ before a b) : before b a := by
  have hmap : a.map UInt8.toNat ≠ b.map UInt8.toNat := fun heq =>
    hne (List.map_injective_iff.mpr (fun _ _ => UInt8.toNat_inj.mp) heq)
  exact (lt_or_gt_of_ne hmap).resolve_left h

theorem nodup_of_ascending {names : List (List UInt8)} (h : names.Pairwise before) :
    names.Nodup := by
  refine h.imp ?_
  rintro a b hab rfl
  exact before_irrefl a hab

theorem mem_setChild {key : List UInt8} {j : JsonObject} {c : List UInt8 × JsonObject}
    {cs : List (List UInt8 × JsonObject)} (h : c ∈ setChild key j cs) : c = (key, j) ∨ c ∈ cs := by
  induction cs with
  | nil => exact .inl (List.mem_singleton.mp h)
  | cons c' cs ih =>
    obtain ⟨k, i⟩ := c'
    rw [setChild] at h
    split_ifs at h
    · rcases List.mem_cons.mp h with rfl | hmem
      · exact .inl rfl
      · exact .inr (List.mem_cons_of_mem _ hmem)
    · exact List.mem_cons.mp h
    · rcases List.mem_cons.mp h with rfl | hmem
      · exact .inr List.mem_cons_self
      · exact (ih hmem).imp_right (List.mem_cons_of_mem _)

theorem ascending_setChild (key : List UInt8) (j : JsonObject)
    {cs : List (List UInt8 × JsonObject)} (h : (cs.map Prod.fst).Pairwise before) :
    ((setChild key j cs).map Prod.fst).Pairwise before := by
  induction cs with
  | nil => exact List.pairwise_singleton _ _
  | cons c cs ih =>
    obtain ⟨k, i⟩ := c
    rw [List.map_cons, List.pairwise_cons] at h
    obtain ⟨hhead, htail⟩ := h
    rw [setChild]
    split_ifs with heq hbefore
    · rw [List.map_cons, List.pairwise_cons, heq]
      exact ⟨hhead, htail⟩
    · rw [List.map_cons, List.map_cons, List.pairwise_cons, List.pairwise_cons, List.forall_mem_cons]
      exact ⟨⟨hbefore, fun name hname => before_trans hbefore (hhead name hname)⟩, hhead, htail⟩
    · rw [List.map_cons, List.pairwise_cons]
      refine ⟨fun name hname => ?_, ih htail⟩
      obtain ⟨c, hc, rfl⟩ := List.mem_map.mp hname
      rcases mem_setChild hc with rfl | hmem
      · exact before_of_not_before heq hbefore
      · exact hhead c.1 (List.mem_map_of_mem hmem)

/-- A name behind all others is put at the end. -/
theorem setChild_of_last {key : List UInt8} {j : JsonObject}
    {cs : List (List UInt8 × JsonObject)} (h : ∀ c ∈ cs, before c.1 key) :
    setChild key j cs = cs ++ [(key, j)] := by
  induction cs with
  | nil => rfl
  | cons c cs ih =>
    obtain ⟨k, i⟩ := c
    obtain ⟨hk, hcs⟩ := List.forall_mem_cons.mp h
    have hne : key ≠ k := fun heq => before_irrefl k (heq ▸ hk)
    have hnot : ¬ before key k := fun hbefore => before_irrefl k (before_trans hk hbefore)
    rw [setChild, if_neg hne, if_neg hnot, ih hcs, List.cons_append]

theorem ascending_ofTrees (cs : List (List UInt8 × PTree)) {done : List (List UInt8 × JsonObject)}
    (h : (done.map Prod.fst).Pairwise before) :
    ((ofTrees cs done).map Prod.fst).Pairwise before := by
  induction cs generalizing done with
  | nil =>
    rw [ofTrees]
    exact h
  | cons c cs ih =>
    rw [ofTrees]
    exact ih (ascending_setChild c.1 (ofTree c.2) h)

theorem mem_ofTrees {cs : List (List UInt8 × PTree)} {done : List (List UInt8 × JsonObject)}
    {c : List UInt8 × JsonObject} (h : c ∈ ofTrees cs done) :
    c ∈ done ∨ ∃ t, (c.1, t) ∈ cs ∧ c.2 = ofTree t := by
  induction cs generalizing done with
  | nil =>
    rw [ofTrees] at h
    exact .inl h
  | cons m cs ih =>
    obtain ⟨key, t⟩ := m
    rw [ofTrees] at h
    rcases ih h with hdone | ⟨t', hmem, heq⟩
    · rcases mem_setChild hdone with rfl | hdone
      · exact .inr ⟨t, List.mem_cons_self, rfl⟩
      · exact .inl hdone
    · exact .inr ⟨t', List.mem_cons_of_mem _ hmem, heq⟩

/-- The children of a tree, if no name comes before an earlier one. -/
theorem ofTrees_of_ascending {cs : List (List UInt8 × PTree)}
    {done : List (List UInt8 × JsonObject)}
    (h : (done.map Prod.fst ++ cs.map Prod.fst).Pairwise before) :
    ofTrees cs done = done ++ cs.map fun c => (c.1, ofTree c.2) := by
  induction cs generalizing done with
  | nil => rw [ofTrees, List.map_nil, List.append_nil]
  | cons c cs ih =>
    have hlast : ∀ d ∈ done, before d.1 c.1 := fun d hd =>
      (List.pairwise_append.mp h).2.2 d.1 (List.mem_map_of_mem hd) c.1 (by simp)
    rw [ofTrees, setChild_of_last hlast, ih (by simpa using h)]
    simp

mutual

/-- An object that is read is clean, if its text is a JSON text with plain strings. -/
theorem clean_ofTree : ∀ t : PTree, (ofTree t).doc.isComplete = true →
    (∀ s ∈ (ofTree t).doc.strings, PlainText s) → (ofTree t).Clean
  | .leaf data, hcomplete, hplain => by
    rw [ofTree] at hcomplete hplain ⊢
    by_cases hnull : data = ascii "null"
    · rw [if_pos hnull, doc] at hcomplete
      exact absurd hcomplete (by decide)
    · rw [if_neg hnull] at hplain ⊢
      rw [doc, Doc.strings, List.forall_mem_singleton] at hplain
      rw [Clean]
      exact ⟨hplain, hnull⟩
  | .node cs, hcomplete, hplain => by
    have hascending : ((ofTrees cs []).map Prod.fst).Pairwise before :=
      ascending_ofTrees cs List.Pairwise.nil
    have hchild : ∀ c ∈ ofTrees cs [], ∃ t, (c.1, t) ∈ cs ∧ c.2 = ofTree t := fun c hc =>
      (mem_ofTrees hc).resolve_left List.not_mem_nil
    rw [ofTree] at hcomplete hplain ⊢
    cases hcs : ofTrees cs [] with
    | nil =>
      rw [Clean]
      exact ⟨by decide, by decide +kernel⟩
    | cons c rest =>
      rw [hcs] at hcomplete hplain hascending hchild
      rw [doc_cons] at hcomplete hplain
      rw [Doc.isComplete, Bool.not_false, Bool.and_true, Doc.areComplete_iff, docs_eq,
        List.forall_mem_map] at hcomplete
      rw [Doc.strings, Doc.forall_mem_stringsMembers, docs_eq, List.forall_mem_map] at hplain
      rw [Clean, allClean_iff]
      refine ⟨hascending, fun d hd => ⟨(hplain d hd).1, ?_⟩⟩
      obtain ⟨t, hmem, heq⟩ := hchild d hd
      have hd₁ := hcomplete d hd
      have hd₂ := (hplain d hd).2
      dsimp only at hd₁ hd₂
      rw [heq] at hd₁ hd₂ ⊢
      exact clean_ofTrees cs (d.1, t) hmem hd₁ hd₂

theorem clean_ofTrees : ∀ cs : List (List UInt8 × PTree), ∀ c ∈ cs,
    (ofTree c.2).doc.isComplete = true → (∀ s ∈ (ofTree c.2).doc.strings, PlainText s) →
    (ofTree c.2).Clean
  | [], c, hc, _, _ => absurd hc List.not_mem_nil
  | (key, t) :: cs, c, hc, hcomplete, hplain => by
    rcases List.mem_cons.mp hc with rfl | hmem
    · exact clean_ofTree t hcomplete hplain
    · exact clean_ofTrees cs c hmem hcomplete hplain

end

mutual

/-- An object that is read costs what it weighs when it is written. -/
theorem covers_ofTree : ∀ t : PTree, Covers 0 t (ofTree t).doc
  | .leaf data => by
    rw [ofTree]
    by_cases hnull : data = ascii "null"
    · rw [if_pos hnull, doc]
      exact ⟨Nat.zero_le _, fun _ => by simp [Doc.strings]⟩
    · rw [if_neg hnull, doc]
      refine ⟨?_, fun h => ?_⟩
      · rw [Doc.write, PTree.cost]
        simp [byteWeight_punctuation]
      · rwa [Doc.strings]
  | .node cs => by
    have hascending : ((ofTrees cs []).map Prod.fst).Pairwise before :=
      ascending_ofTrees cs List.Pairwise.nil
    have hchild : ∀ c ∈ ofTrees cs [], ∃ t, (c.1, t) ∈ cs ∧ c.2 = ofTree t := fun c hc =>
      (mem_ofTrees hc).resolve_left List.not_mem_nil
    rw [ofTree]
    cases hcs : ofTrees cs [] with
    | nil =>
      rw [doc]
      refine ⟨by simp [Doc.write, byteWeight_punctuation], fun _ => ?_⟩
      rw [Doc.strings, List.forall_mem_singleton]
      exact List.forall_mem_nil _
    | cons c rest =>
      rw [hcs] at hascending hchild
      have hmembers : ∀ m ∈ docs (c :: rest), ∃ t, (m.1, t) ∈ cs ∧ Covers 0 t m.2 := by
        rw [docs_eq, List.forall_mem_map]
        intro d hd
        obtain ⟨t, hmem, heq⟩ := hchild d hd
        refine ⟨t, hmem, ?_⟩
        dsimp only
        rw [heq]
        exact covers_ofTrees cs (d.1, t) hmem
      have hnodup : ((docs (c :: rest)).map Prod.fst).Nodup := by
        rw [docs_eq, List.map_map]
        exact nodup_of_ascending hascending
      have hcovers := covers_object hnodup (fun _ => 0) false hmembers
      rw [doc_cons]
      simpa [docs] using hcovers

theorem covers_ofTrees : ∀ cs : List (List UInt8 × PTree), ∀ c ∈ cs, Covers 0 c.2 (ofTree c.2).doc
  | [], c, hc => absurd hc List.not_mem_nil
  | (key, t) :: cs, c, hc => by
    rcases List.mem_cons.mp hc with rfl | hmem
    · exact covers_ofTree t
    · exact covers_ofTrees cs c hmem

end

mutual

/-- A clean object is read back from its document with the same text. -/
theorem Clean.toString_ofTree : ∀ {j : JsonObject}, j.Clean →
    (ofTree j.doc.tree).toString = j.toString
  | mk [] none, h => by
    rw [Clean] at h
    exact h.elim
  | mk [] (some s), h => by
    rw [Clean] at h
    rw [JsonObject.doc, Doc.tree, ofTree, if_neg h.2]
  | mk ((key, j) :: cs) value, h => by
    rw [Clean] at h
    obtain ⟨hascending, hclean⟩ := h
    rw [AllClean] at hclean
    have hnames : (([] : List (List UInt8 × JsonObject)).map Prod.fst ++
        (Doc.trees (docs ((key, j) :: cs))).map Prod.fst).Pairwise before := by
      rw [Doc.trees_eq, docs_eq, List.map_map, List.map_map]
      exact hascending
    have hcs := hclean.2.2.toStrings_ofTrees
    rw [doc_cons, Doc.tree, ofTree, ofTrees_of_ascending hnames, docs, Doc.trees, List.nil_append,
      List.map_cons, toString, toString, hclean.2.1.toString_ofTree, hcs]

theorem AllClean.toStrings_ofTrees : ∀ {cs : List (List UInt8 × JsonObject)}, AllClean cs →
    toStrings ((Doc.trees (docs cs)).map fun c => (c.1, ofTree c.2)) = toStrings cs
  | [], _ => by rw [docs, Doc.trees, List.map_nil]
  | (key, j) :: cs, h => by
    rw [AllClean] at h
    rw [docs, Doc.trees, List.map_cons, toStrings, toStrings, h.2.1.toString_ofTree,
      h.2.2.toStrings_ofTrees]

end

end JsonObject

/-! ## Values -/

variable {Double : Type} (fmt : DoubleFormat Double)

/-- The document of `SerializeVisitor`. -/
def ValueType.doc : ValueType Double → Doc
  | bool b => .literal (if b then ascii "true" else ascii "false")
  | size n => .literal (decimal n.toNat)
  | double x => .literal (fmt.fixed2 x)
  | string s => if s = [] then .literal (ascii "null") else .string s
  | object j => if j.toString = [] then .literal (ascii "null") else j.doc

/-- A value that its text tells to a reader that expects a value of the kind. -/
def Kind.Fits : Kind → ValueType Double → Prop
  | .size, v => ∃ n, v = .size n
  | .string, v => ∃ s, v = .string s ∧ s ≠ [] ∧ PlainText s
  | .double, v => ∃ x, v = .double x ∧ fmt.read (fmt.fixed2 x) = some x
  | .bool, v => ∃ b, v = .bool b
  | .object, v => ∃ j, v.Same (.object j) ∧ (j.toString = [] ∨ j.Clean)
  | .ignored, v => v = .string []
  | .nullable, v => ∃ s, v = .string s ∧ s ≠ ascii "null" ∧ PlainText s

variable {fmt}

theorem ValueType.Same.refl (v : ValueType Double) : v.Same v := by
  cases v <;> rfl

theorem ValueType.Same.symm {v w : ValueType Double} (h : v.Same w) : w.Same v := by
  cases v <;> cases w <;> exact Eq.symm h

theorem ValueType.Same.trans {u v w : ValueType Double} (h : u.Same v) (h' : v.Same w) :
    u.Same w := by
  cases u <;> cases v <;> cases w <;> first | exact Eq.trans h h' | cases h | cases h'

/-- Only objects can be the same without being equal. -/
theorem ValueType.Same.eq_of_ne {v w : ValueType Double} (h : v.Same w)
    (hw : ∀ j, w ≠ .object j) : v = w := by
  cases v <;> cases w <;> first | exact h | exact absurd rfl (hw _)

/-- The same value has the same text. -/
theorem ValueType.Same.serialize {v w : ValueType Double} (h : v.Same w) :
    v.serialize fmt = w.serialize fmt := by
  by_cases hobject : ∃ i j, v = .object i ∧ w = .object j
  · obtain ⟨i, j, rfl, rfl⟩ := hobject
    have htext : i.toString = j.toString := h
    rw [ValueType.serialize, ValueType.serialize, htext]
  · have heq : v = w := by
      cases v <;> cases w <;> first | exact h | exact absurd ⟨_, _, rfl, rfl⟩ hobject
    rw [heq]

theorem ValueType.write_doc (v : ValueType Double) : (v.doc fmt).write = v.serialize fmt := by
  cases v with
  | bool b => rw [doc, serialize, Doc.write]
  | size n => rw [doc, serialize, Doc.write]
  | double x => rw [doc, serialize, Doc.write]
  | string s =>
    rw [doc, serialize]
    split_ifs <;> rw [Doc.write]
    rfl
  | object j =>
    rw [doc, serialize]
    split_ifs
    · rw [Doc.write]
    · exact j.write_doc

/-- Words and numbers are written with letters, digits, signs and points. -/
theorem ValueType.tokens_doc (v : ValueType Double) :
    ∀ t ∈ (v.doc fmt).tokens, ∀ b ∈ t, isLiteralChar b = true := by
  have hnull : ∀ b ∈ ascii "null", isLiteralChar b = true := by decide +kernel
  cases v with
  | bool b =>
    rw [doc, Doc.tokens, List.forall_mem_singleton]
    cases b <;> decide +kernel
  | size n =>
    rw [doc, Doc.tokens, List.forall_mem_singleton]
    exact fun b hb => (isLiteralChar_of_isDigit (isDigit_decimal _ b hb)).1
  | double x =>
    rw [doc, Doc.tokens, List.forall_mem_singleton]
    exact fmt.fixed2_chars x
  | string s =>
    rw [doc]
    split_ifs
    · rw [Doc.tokens, List.forall_mem_singleton]
      exact hnull
    · simp [Doc.tokens]
  | object j =>
    rw [doc]
    split_ifs
    · rw [Doc.tokens, List.forall_mem_singleton]
      exact hnull
    · intro t ht b hb
      rw [j.tokens_doc t ht] at hb
      exact absurd hb List.not_mem_nil

theorem isBool_text (b : Bool) :
    isLiteral (if b then ascii "true" else ascii "false") = true ∧
      readBool (if b then ascii "true" else ascii "false") = some b ∧
      weight (if b then ascii "true" else ascii "false") = 0 := by
  cases b <;> decide

theorem isLiteral_null : isLiteral (ascii "null") = true ∧ weight (ascii "null") = 0 := by decide

theorem covers_literal {t : PTree} {token : List UInt8} (h : weight token = 0) :
    Covers 0 t (.literal token) := by
  refine ⟨?_, fun _ => ?_⟩
  · rw [Doc.write, h]
    exact Nat.zero_le _
  · rw [Doc.strings]
    exact List.forall_mem_nil _

theorem covers_string (t : PTree) : Covers 0 t (.string t.data) := by
  cases t with
  | leaf data =>
    refine ⟨?_, fun h => ?_⟩
    · rw [Doc.write, PTree.cost]
      simp [PTree.data, byteWeight_punctuation]
    · rwa [Doc.strings]
  | node cs =>
    refine ⟨by simp [PTree.data, Doc.write, byteWeight_punctuation], fun _ => ?_⟩
    rw [Doc.strings, List.forall_mem_singleton]
    exact List.forall_mem_nil _

theorem ValueType.covers_string (t : PTree) : Covers 0 t ((string t.data).doc fmt) := by
  rw [doc]
  split_ifs
  · exact covers_literal isLiteral_null.2
  · exact I2PControl.covers_string t

/-- A value that is read costs what it weighs when it is written. -/
theorem Kind.covers_of_read {k : Kind} {t : PTree} {v : ValueType Double}
    (h : k.read fmt t = some v) : Covers 0 t (v.doc fmt) := by
  cases k with
  | size =>
    obtain ⟨n, -, rfl⟩ := Option.map_eq_some_iff.mp h
    rw [ValueType.doc]
    exact covers_literal (weight_decimal _)
  | string =>
    obtain rfl := Option.some.inj h
    exact ValueType.covers_string t
  | double =>
    obtain ⟨x, hread, rfl⟩ := Option.map_eq_some_iff.mp h
    rw [ValueType.doc]
    refine covers_literal (weight_eq_zero fun b hb => ?_)
    rcases (fmt.fixed2_of_read hread).2 b hb with hdigit | rfl | rfl
    · exact (isLiteralChar_of_isDigit hdigit).2.1
    · decide
    · decide
  | bool =>
    obtain ⟨b, -, rfl⟩ := Option.map_eq_some_iff.mp h
    rw [ValueType.doc]
    exact covers_literal (isBool_text b).2.2
  | object =>
    obtain rfl := Option.some.inj h
    rw [ValueType.doc]
    split_ifs
    · exact covers_literal isLiteral_null.2
    · exact JsonObject.covers_ofTree t
  | ignored =>
    obtain rfl := Option.some.inj h
    rw [ValueType.doc, if_pos rfl]
    exact covers_literal isLiteral_null.2
  | nullable =>
    obtain rfl := Option.some.inj h
    split_ifs
    · rw [ValueType.doc, if_pos rfl]
      exact covers_literal isLiteral_null.2
    · exact ValueType.covers_string t

theorem ascii_null_ne_nil : ascii "null" ≠ [] := by decide

theorem ValueType.doc_string {s : List UInt8} (h : s ≠ []) :
    (ValueType.string s : ValueType Double).doc fmt = .string s := if_neg h

theorem ValueType.doc_nil : (ValueType.string [] : ValueType Double).doc fmt =
    .literal (ascii "null") := by rw [doc, if_pos rfl]

theorem plainText_nil : PlainText [] := by decide

/-- A value that is read from its own document fits, if there are plain texts in the document and
it is complete. -/
theorem Kind.fits_of_read {k : Kind} {t : PTree} {v : ValueType Double}
    (h : k.read fmt t = some v) (htree : (v.doc fmt).tree = t)
    (hcomplete : (v.doc fmt).isComplete = true) (hplain : ∀ s ∈ (v.doc fmt).strings, PlainText s) :
    k.Fits fmt v := by
  -- a string that is not empty is a text of the document
  have hstring {s : List UInt8} (hs : s ≠ []) (hv : v = .string s) : PlainText s := by
    rw [hv, ValueType.doc_string hs, Doc.strings, List.forall_mem_singleton] at hplain
    exact hplain
  cases k with
  | size =>
    obtain ⟨n, -, rfl⟩ := Option.map_eq_some_iff.mp h
    exact ⟨n, rfl⟩
  | string =>
    obtain rfl := Option.some.inj h
    have hne : t.data ≠ [] := by
      intro hnil
      rw [ValueType.doc, if_pos hnil, Doc.tree] at htree
      rw [← htree] at hnil
      exact ascii_null_ne_nil hnil
    exact ⟨t.data, rfl, hne, hstring hne rfl⟩
  | double =>
    obtain ⟨x, hread, rfl⟩ := Option.map_eq_some_iff.mp h
    rw [ValueType.doc, Doc.tree] at htree
    rw [← htree] at hread
    exact ⟨x, rfl, hread⟩
  | bool =>
    obtain ⟨b, -, rfl⟩ := Option.map_eq_some_iff.mp h
    exact ⟨b, rfl⟩
  | object =>
    obtain rfl := Option.some.inj h
    refine ⟨.ofTree t, .refl _, ?_⟩
    by_cases hnil : (JsonObject.ofTree t).toString = []
    · exact .inl hnil
    · rw [ValueType.doc, if_neg hnil] at hcomplete hplain
      exact .inr (JsonObject.clean_ofTree t hcomplete hplain)
  | ignored => exact (Option.some.inj h).symm
  | nullable =>
    have hv := (Option.some.inj h).symm
    split_ifs at hv with hnull
    · exact ⟨[], hv, ascii_null_ne_nil.symm, plainText_nil⟩
    · refine ⟨t.data, hv, hnull, ?_⟩
      by_cases hnil : t.data = []
      · rw [hnil]
        exact plainText_nil
      · exact hstring hnil hv

theorem Kind.Fits.congr {k : Kind} {v w : ValueType Double} (hv : k.Fits fmt v) (h : v.Same w) :
    k.Fits fmt w := by
  cases k with
  | object =>
    obtain ⟨j, hj, hclean⟩ := hv
    exact ⟨j, h.symm.trans hj, hclean⟩
  | size =>
    obtain ⟨n, rfl⟩ := hv
    exact ⟨n, h.symm.eq_of_ne fun j heq => by cases heq⟩
  | bool =>
    obtain ⟨b, rfl⟩ := hv
    exact ⟨b, h.symm.eq_of_ne fun j heq => by cases heq⟩
  | string =>
    obtain ⟨s, rfl, hs⟩ := hv
    exact ⟨s, h.symm.eq_of_ne (fun j heq => by cases heq), hs⟩
  | double =>
    obtain ⟨x, rfl, hx⟩ := hv
    exact ⟨x, h.symm.eq_of_ne (fun j heq => by cases heq), hx⟩
  | nullable =>
    obtain ⟨s, rfl, hs⟩ := hv
    exact ⟨s, h.symm.eq_of_ne (fun j heq => by cases heq), hs⟩
  | ignored =>
    obtain rfl := hv
    exact h.symm.eq_of_ne fun j heq => by cases heq

/-- A value whose document is a JSON text and is read as the value. -/
structure Kind.Holds (fmt : DoubleFormat Double) (k : Kind) (v : ValueType Double) : Prop where
  complete : (v.doc fmt).isComplete = true
  plain : ∀ s ∈ (v.doc fmt).strings, PlainText s
  read : ∃ w, k.read fmt (v.doc fmt).tree = some w ∧ w.Same v

theorem Kind.holds_null {k : Kind} {v : ValueType Double} (hv : v.doc fmt = .literal (ascii "null"))
    (hread : ∃ w, k.read fmt (.leaf (ascii "null")) = some w ∧ w.Same v) : k.Holds fmt v := by
  refine ⟨?_, ?_, ?_⟩
  · rw [hv]
    decide
  · rw [hv, Doc.strings]
    exact List.forall_mem_nil _
  · rw [hv, Doc.tree]
    exact hread

theorem Kind.holds_string {k : Kind} {s : List UInt8} (hne : s ≠ []) (hs : PlainText s)
    (hread : k.read fmt (.leaf s) = some (.string s)) : k.Holds fmt (.string s) := by
  have hdoc : (ValueType.string s : ValueType Double).doc fmt = .string s :=
    ValueType.doc_string hne
  refine ⟨?_, ?_, .string s, ?_, .refl _⟩
  · rw [hdoc, Doc.isComplete]
  · rw [hdoc, Doc.strings, List.forall_mem_singleton]
    exact hs
  · rw [hdoc]
    exact hread

theorem Kind.holds_literal {k : Kind} {v : ValueType Double} {token : List UInt8}
    (hv : v.doc fmt = .literal token) (htoken : isLiteral token = true)
    (hread : k.read fmt (.leaf token) = some v) : k.Holds fmt v := by
  refine ⟨?_, ?_, v, ?_, .refl _⟩
  · rw [hv, Doc.isComplete, htoken]
  · rw [hv, Doc.strings]
    exact List.forall_mem_nil _
  · rw [hv, Doc.tree]
    exact hread

/-- A value that fits is the same as one that is read back. -/
theorem Kind.Fits.exists_holds {k : Kind} {v : ValueType Double} (h : k.Fits fmt v) :
    ∃ w, w.Same v ∧ k.Holds fmt w := by
  cases k with
  | size =>
    obtain ⟨n, rfl⟩ := h
    refine ⟨.size n, .refl _, Kind.holds_literal rfl (isLiteral_of_isNumber (isNumber_decimal _)) ?_⟩
    exact congrArg (Option.map ValueType.size) (readSize_decimal n)
  | string =>
    obtain ⟨s, rfl, hne, hs⟩ := h
    exact ⟨.string s, .refl _, Kind.holds_string hne hs rfl⟩
  | double =>
    obtain ⟨x, rfl, hx⟩ := h
    refine ⟨.double x, .refl _,
      Kind.holds_literal rfl (isLiteral_of_isNumber (fmt.fixed2_of_read hx).1) ?_⟩
    exact congrArg (Option.map ValueType.double) hx
  | bool =>
    obtain ⟨b, rfl⟩ := h
    refine ⟨.bool b, .refl _, Kind.holds_literal rfl (isBool_text b).1 ?_⟩
    exact congrArg (Option.map ValueType.bool) (isBool_text b).2.1
  | object =>
    obtain ⟨j, hv, hj⟩ := h
    refine ⟨.object j, hv.symm, ?_⟩
    by_cases hnil : j.toString = []
    · refine Kind.holds_null (if_pos hnil) ⟨_, rfl, ?_⟩
      show (JsonObject.ofTree (.leaf (ascii "null"))).toString = j.toString
      rw [hnil, JsonObject.ofTree, if_pos rfl, JsonObject.toString]
    · have hclean := hj.resolve_left hnil
      have hdoc : (ValueType.object j : ValueType Double).doc fmt = j.doc := if_neg hnil
      refine ⟨?_, ?_, .object (.ofTree j.doc.tree), ?_, hclean.toString_ofTree⟩
      · rw [hdoc]
        exact hclean.doc.1
      · rw [hdoc]
        exact hclean.doc.2
      · rw [hdoc]
        rfl
  | ignored =>
    obtain rfl := h
    exact ⟨.string [], .refl _, Kind.holds_null ValueType.doc_nil ⟨.string [], rfl, .refl _⟩⟩
  | nullable =>
    obtain ⟨s, rfl, hnull, hs⟩ := h
    refine ⟨.string s, .refl _, ?_⟩
    by_cases hnil : s = []
    · rw [hnil]
      refine Kind.holds_null ValueType.doc_nil ⟨.string [], ?_, .refl _⟩
      exact congrArg some (congrArg ValueType.string (if_pos rfl))
    · refine Kind.holds_string hnil hs ?_
      exact congrArg some (congrArg ValueType.string (if_neg hnull))

end I2PControl
