import Xi2p.Lib.Json

/-!
# JSON texts put together by hand

`Doc` is a text that is put together by hand. Its strings are written as they are, a value may be
missing and the last member of an object may be followed by a comma.

* `Doc.readJson_write`: a document without a quotation mark, a backslash or a control character in
  its strings is read if it is complete, and then what is read is what was written.
-/

namespace Json

/-! ## Documents -/

/-- A text that is put together by hand. -/
inductive Doc
  /-- A word or a number; nothing, where a value is missing. -/
  | literal (token : List UInt8)
  | string (s : List UInt8)
  /-- An object; `comma` tells whether a comma follows the last member. -/
  | object (members : List (List UInt8 × Doc)) (comma : Bool)

namespace Doc

/-- The end of an object. -/
def closing (comma : Bool) : List UInt8 := if comma then [44, closeBrace] else [closeBrace]

mutual

/-- The text. -/
def write : Doc → List UInt8
  | literal token => token
  | string s => quote :: (s ++ [quote])
  | object [] comma => openBrace :: closing comma
  | object ((key, d) :: ms) comma =>
    openBrace :: quote :: (key ++ quote :: colon :: (d.write ++
      (writeMembers ms ++ closing comma)))

/-- Members that follow another one. -/
def writeMembers : List (List UInt8 × Doc) → List UInt8
  | [] => []
  | (key, d) :: ms =>
    comma :: quote :: (key ++ quote :: colon :: (d.write ++ writeMembers ms))

end

mutual

/-- What a reader makes of the text. -/
def tree : Doc → PTree
  | literal token => .leaf token
  | string s => .leaf s
  | object ms _ => .node (trees ms)

def trees : List (List UInt8 × Doc) → List (List UInt8 × PTree)
  | [] => []
  | (key, d) :: ms => (key, d.tree) :: trees ms

end

mutual

/-- Every value is there, and no object ends with a comma. -/
def isComplete : Doc → Bool
  | literal token => isLiteral token
  | string _ => true
  | object ms comma => areComplete ms && !comma

def areComplete : List (List UInt8 × Doc) → Bool
  | [] => true
  | (_, d) :: ms => d.isComplete && areComplete ms

end

mutual

/-- The strings of a document, names of members included. -/
def strings : Doc → List (List UInt8)
  | literal _ => []
  | string s => [s]
  | object ms _ => stringsMembers ms

def stringsMembers : List (List UInt8 × Doc) → List (List UInt8)
  | [] => []
  | (key, d) :: ms => key :: (d.strings ++ stringsMembers ms)

end

mutual

/-- The words and numbers of a document. -/
def tokens : Doc → List (List UInt8)
  | literal token => [token]
  | string _ => []
  | object ms _ => tokensMembers ms

def tokensMembers : List (List UInt8 × Doc) → List (List UInt8)
  | [] => []
  | (_, d) :: ms => d.tokens ++ tokensMembers ms

end

/-! ### Members -/

theorem writeMembers_eq (ms : List (List UInt8 × Doc)) :
    writeMembers ms =
      ms.flatMap fun m => comma :: quote :: (m.1 ++ quote :: colon :: m.2.write) := by
  induction ms with
  | nil => rfl
  | cons m ms ih =>
    rw [writeMembers, ih, List.flatMap_cons]
    simp

theorem trees_eq (ms : List (List UInt8 × Doc)) : trees ms = ms.map fun m => (m.1, m.2.tree) := by
  induction ms with
  | nil => rfl
  | cons m ms ih => rw [trees, ih, List.map_cons]

theorem areComplete_iff {ms : List (List UInt8 × Doc)} :
    areComplete ms = true ↔ ∀ m ∈ ms, m.2.isComplete = true := by
  induction ms with
  | nil => simp [areComplete]
  | cons m ms ih => rw [areComplete, Bool.and_eq_true, ih, List.forall_mem_cons]

theorem forall_mem_stringsMembers {p : List UInt8 → Prop} {ms : List (List UInt8 × Doc)} :
    (∀ s ∈ stringsMembers ms, p s) ↔ ∀ m ∈ ms, p m.1 ∧ ∀ s ∈ m.2.strings, p s := by
  induction ms with
  | nil => simp [stringsMembers]
  | cons m ms ih =>
    rw [stringsMembers, List.forall_mem_cons, List.forall_mem_append, ih, List.forall_mem_cons,
      and_assoc]

theorem forall_mem_tokensMembers {p : List UInt8 → Prop} {ms : List (List UInt8 × Doc)} :
    (∀ t ∈ tokensMembers ms, p t) ↔ ∀ m ∈ ms, ∀ t ∈ m.2.tokens, p t := by
  induction ms with
  | nil => simp [tokensMembers]
  | cons m ms ih => rw [tokensMembers, List.forall_mem_append, ih, List.forall_mem_cons]

end Doc

/-- A string that stands for itself between quotation marks. -/
def Plain (s : List UInt8) : Prop := ∀ b ∈ s, b ≠ quote ∧ b ≠ backslash ∧ 32 ≤ b

instance (s : List UInt8) : Decidable (Plain s) :=
  List.decidableBAll (fun b => b ≠ quote ∧ b ≠ backslash ∧ 32 ≤ b) s

/-- A document that can be read back as it is written: no character of a string has a meaning, and
the words and numbers consist of letters, digits, signs and points. -/
structure Doc.Readable (d : Doc) : Prop where
  plain : ∀ s ∈ d.strings, Plain s
  tokens : ∀ t ∈ d.tokens, ∀ b ∈ t, isLiteralChar b = true

/-! ## Texts in UTF-8 -/

namespace Utf8

/-- What is known of a text so far: only a complete character owes nothing, and a byte of ASCII
never stands inside a character. -/
def Inside (s : Utf8) : Prop := (s.owed = 0 → s = start) ∧ 0x80 ≤ s.low

theorem inside_start : Inside start := ⟨fun _ => rfl, by decide⟩

theorem inside_first {b : UInt8} {s : Utf8} (h : first b = some s) : Inside s := by
  unfold first at h
  split_ifs at h <;> cases h
  · exact inside_start
  all_goals
    constructor
    · intro howed
      exact absurd howed (by decide)
    · decide

theorem Inside.step {s s' : Utf8} {b : UInt8} (hstep : s.step b = some s') : Inside s' := by
  unfold Utf8.step at hstep
  split at hstep
  · exact inside_first hstep
  · rename_i owed howed
    split at hstep
    · cases hstep
      refine ⟨fun (hzero : owed = 0) => ?_, ?_⟩
      · rw [hzero]
        rfl
      · show (0x80 : UInt8) ≤ 0x80
        decide
    · cases hstep

theorem inside_foldlM {s s' : Utf8} {text : List UInt8} (hs : Inside s)
    (h : text.foldlM Utf8.step s = some s') : Inside s' := by
  induction text generalizing s with
  | nil =>
    cases h
    exact hs
  | cons b text ih =>
    rw [List.foldlM_cons] at h
    obtain ⟨s₁, hstep, hrest⟩ := Option.bind_eq_some_iff.mp h
    exact ih (Inside.step hstep) hrest

/-- A byte of ASCII follows a complete character. -/
theorem Inside.step_ascii {s : Utf8} (h : Inside s) {b : UInt8} (hb : b < 0x80) :
    s.step b = if s = start then some start else none := by
  by_cases howed : s.owed = 0
  · rw [if_pos (h.1 howed), Utf8.step, howed]
    exact if_pos hb
  · have hne : s ≠ start := fun heq => howed (heq ▸ rfl)
    have hlow : ¬ s.low ≤ b := UInt8.not_le.mpr (UInt8.lt_of_lt_of_le hb h.2)
    rw [if_neg hne, Utf8.step]
    split
    · contradiction
    · exact if_neg fun hboth => hlow hboth.1

end Utf8

/-- A text is cut at a byte of ASCII into two texts. -/
theorem isUtf8_append_cons {b : UInt8} (hb : b < 0x80) (s t : List UInt8) :
    IsUtf8 (s ++ b :: t) ↔ IsUtf8 s ∧ IsUtf8 t := by
  rw [IsUtf8, IsUtf8, List.foldlM_append]
  cases hs : s.foldlM Utf8.step Utf8.start with
  | none => simp
  | some q =>
    have hq := (Utf8.inside_foldlM Utf8.inside_start hs).step_ascii hb
    rw [Option.bind_eq_bind, Option.bind_some, List.foldlM_cons, hq]
    by_cases hstart : q = Utf8.start
    · subst hstart
      simp [IsUtf8]
    · simp [hstart]

theorem isUtf8_nil : IsUtf8 [] := rfl

theorem isUtf8_cons {b : UInt8} (hb : b < 0x80) (t : List UInt8) : IsUtf8 (b :: t) ↔ IsUtf8 t := by
  rw [← List.nil_append (b :: t), isUtf8_append_cons hb]
  exact and_iff_right isUtf8_nil

theorem isUtf8_append_of_ascii {s : List UInt8} (h : ∀ b ∈ s, b < 0x80) (t : List UInt8) :
    IsUtf8 (s ++ t) ↔ IsUtf8 t := by
  induction s with
  | nil => rfl
  | cons b s ih =>
    obtain ⟨hb, hs⟩ := List.forall_mem_cons.mp h
    rw [List.cons_append, isUtf8_cons hb, ih hs]

theorem lt_of_isLiteralChar {b : UInt8} (h : isLiteralChar b = true) : b < 0x80 := by
  have hall : ∀ n : Fin 256, isLiteralChar (UInt8.ofFin n) = true → UInt8.ofFin n < 0x80 := by
    decide +kernel
  exact hall b.toFin h

namespace Doc

theorem isUtf8_closing (comma : Bool) (rest : List UInt8) :
    IsUtf8 (closing comma ++ rest) ↔ IsUtf8 rest := by
  apply isUtf8_append_of_ascii
  cases comma <;> decide +kernel

mutual

/-- A document is encoded in UTF-8 if its strings are. -/
theorem isUtf8_write : ∀ (d : Doc), (∀ t ∈ d.tokens, ∀ b ∈ t, isLiteralChar b = true) →
    ∀ (rest : List UInt8),
    IsUtf8 (d.write ++ rest) ↔ (∀ s ∈ d.strings, IsUtf8 s) ∧ IsUtf8 rest
  | literal token, htokens, rest => by
    have hascii : ∀ b ∈ token, b < 0x80 := fun b hb =>
      lt_of_isLiteralChar (htokens token List.mem_cons_self b hb)
    rw [write, isUtf8_append_of_ascii hascii, strings]
    exact (and_iff_right (List.forall_mem_nil _)).symm
  | string s, _, rest => by
    rw [write, strings, List.forall_mem_singleton, List.cons_append, isUtf8_cons (by decide),
      List.append_assoc, List.singleton_append, isUtf8_append_cons (by decide)]
  | object [] comma, _, rest => by
    rw [write, strings, stringsMembers, List.cons_append, isUtf8_cons (by decide), isUtf8_closing]
    exact (and_iff_right (List.forall_mem_nil _)).symm
  | object ((key, d) :: ms) comma, htokens, rest => by
    rw [tokens, tokensMembers, List.forall_mem_append] at htokens
    simp only [write, List.cons_append, List.append_assoc, strings, stringsMembers]
    rw [isUtf8_cons (by decide), isUtf8_cons (by decide), isUtf8_append_cons (by decide),
      isUtf8_cons (by decide), isUtf8_write d htokens.1, isUtf8_writeMembers ms htokens.2,
      isUtf8_closing, List.forall_mem_cons, List.forall_mem_append, and_assoc, and_assoc]

theorem isUtf8_writeMembers : ∀ (ms : List (List UInt8 × Doc)),
    (∀ t ∈ tokensMembers ms, ∀ b ∈ t, isLiteralChar b = true) → ∀ (rest : List UInt8),
    IsUtf8 (writeMembers ms ++ rest) ↔ (∀ s ∈ stringsMembers ms, IsUtf8 s) ∧ IsUtf8 rest
  | [], _, rest => by
    rw [writeMembers, stringsMembers]
    exact (and_iff_right (List.forall_mem_nil _)).symm
  | (key, d) :: ms, htokens, rest => by
    rw [tokensMembers, List.forall_mem_append] at htokens
    simp only [writeMembers, List.cons_append, List.append_assoc, stringsMembers]
    rw [isUtf8_cons (by decide), isUtf8_cons (by decide), isUtf8_append_cons (by decide),
      isUtf8_cons (by decide), isUtf8_write d htokens.1, isUtf8_writeMembers ms htokens.2,
      List.forall_mem_cons, List.forall_mem_append, and_assoc, and_assoc]

end

end Doc

/-! ## Reading a document -/

theorem plain_cons {b : UInt8} {s : List UInt8} :
    Plain (b :: s) ↔ (b ≠ quote ∧ b ≠ backslash ∧ 32 ≤ b) ∧ Plain s := List.forall_mem_cons

theorem scan_append {s : List UInt8} (h : Plain s) (rest : List UInt8) :
    scan (s ++ quote :: rest) = some (s, rest) := by
  induction s with
  | nil =>
    rw [List.nil_append, scan.eq_def]
    exact if_pos rfl
  | cons b s ih =>
    obtain ⟨⟨hquote, hbackslash, -⟩, hs⟩ := plain_cons.mp h
    rw [List.cons_append, scan.eq_def]
    dsimp only
    rw [if_neg hquote, if_neg hbackslash, ih hs]
    rfl

theorem unescape_of_plain {s : List UInt8} (h : Plain s) : unescape s.length s = some s := by
  induction s with
  | nil => rfl
  | cons b s ih =>
    obtain ⟨⟨-, hbackslash, hcontrol⟩, hs⟩ := plain_cons.mp h
    rw [List.length_cons, unescape, if_neg hbackslash, if_neg (UInt8.not_lt.mpr hcontrol), ih hs]
    rfl

/-- A plain string is read as it is. -/
theorem string_append {s : List UInt8} (h : Plain s) (rest : List UInt8) :
    string (s ++ quote :: rest) = some (s, rest) := by
  rw [string, scan_append h]
  simp only [Option.bind_eq_bind, Option.bind_some, unescape_of_plain h]
  rfl

theorem skipBlanks_cons {b : UInt8} (h : isBlank b = false) (rest : List UInt8) :
    skipBlanks (b :: rest) = b :: rest := by
  rw [skipBlanks, List.dropWhile_cons_of_neg (by simp [h])]

theorem expect_self {b : UInt8} (h : isBlank b = false) (rest : List UInt8) :
    expect b (b :: rest) = some rest := by
  rw [expect, skipBlanks_cons h]
  exact if_pos rfl

theorem expect_of_ne {b c : UInt8} (h : isBlank c = false) (hne : c ≠ b) (rest : List UInt8) :
    expect b (c :: rest) = none := by
  rw [expect, skipBlanks_cons h]
  exact if_neg hne

/-- What may follow a value in a document: a comma or a brace, or nothing. -/
def Stops (rest : List UInt8) : Prop := ∀ b ∈ rest.head?, b = comma ∨ b = closeBrace

theorem stops_nil : Stops [] := by
  intro b hb
  exact absurd hb (Option.not_mem_none b)

theorem stops_cons {b : UInt8} (h : b = comma ∨ b = closeBrace) (rest : List UInt8) :
    Stops (b :: rest) := by
  rintro _ ⟨⟩
  exact h

/-- A character of a word or of a number starts neither a string nor an object nor an array. -/
theorem ne_of_isLiteralChar {b : UInt8} (h : isLiteralChar b = true) :
    isBlank b = false ∧ b ≠ openBrace ∧ b ≠ openBracket ∧ b ≠ quote := by
  have hall : ∀ n : Fin 256, isLiteralChar (UInt8.ofFin n) = true →
      isBlank (UInt8.ofFin n) = false ∧ UInt8.ofFin n ≠ openBrace ∧
        UInt8.ofFin n ≠ openBracket ∧ UInt8.ofFin n ≠ quote := by decide +kernel
  exact hall b.toFin h

/-- What may follow a value is no character of a word or of a number. -/
theorem takeWhile_of_stops {token rest : List UInt8}
    (htoken : ∀ b ∈ token, isLiteralChar b = true) (hrest : Stops rest) :
    (token ++ rest).takeWhile isLiteralChar = token ∧
      (token ++ rest).dropWhile isLiteralChar = rest := by
  rw [List.takeWhile_append_of_pos htoken, List.dropWhile_append_of_pos htoken]
  cases rest with
  | nil => simp
  | cons b rest =>
    have hb : isLiteralChar b = false := by
      rcases hrest b rfl with rfl | rfl <;> decide
    simp [hb]

theorem literal_append {token rest : List UInt8}
    (htoken : ∀ b ∈ token, isLiteralChar b = true) (hrest : Stops rest) :
    literal (token ++ rest) = if isLiteral token then some (.leaf token, rest) else none := by
  obtain ⟨htake, hdrop⟩ := takeWhile_of_stops htoken hrest
  rw [literal, htake, hdrop]

theorem expect_literal {token rest : List UInt8}
    (htoken : ∀ b ∈ token, isLiteralChar b = true) (hrest : Stops rest) {b : UInt8}
    (hb : b = openBrace ∨ b = openBracket ∨ b = quote) :
    expect b (token ++ rest) = none ∧ skipBlanks (token ++ rest) = token ++ rest := by
  cases token with
  | nil =>
    cases rest with
    | nil => exact ⟨rfl, rfl⟩
    | cons c rest =>
      have hc : isBlank c = false ∧ c ≠ b := by
        rcases hrest c rfl with rfl | rfl <;> rcases hb with rfl | rfl | rfl <;> decide
      exact ⟨expect_of_ne hc.1 hc.2 rest, skipBlanks_cons hc.1 rest⟩
  | cons c token =>
    obtain ⟨hblank, hbrace, hbracket, hquote⟩ := ne_of_isLiteralChar (htoken c List.mem_cons_self)
    have hc : c ≠ b := by
      rcases hb with rfl | rfl | rfl
      · exact hbrace
      · exact hbracket
      · exact hquote
    exact ⟨expect_of_ne hblank hc _, skipBlanks_cons hblank _⟩

theorem value_literal {token rest : List UInt8}
    (htoken : ∀ b ∈ token, isLiteralChar b = true) (hrest : Stops rest) (fuel : ℕ) :
    value (fuel + 1) (token ++ rest) =
      if isLiteral token then some (.leaf token, rest) else none := by
  have hexpect {b : UInt8} := expect_literal htoken hrest (b := b)
  rw [value, (hexpect (.inl rfl)).1]
  dsimp only
  rw [(hexpect (.inr (.inl rfl))).1]
  dsimp only
  rw [(hexpect (.inr (.inr rfl))).1, (hexpect (.inl rfl)).2]
  exact literal_append htoken hrest

theorem value_string {s : List UInt8} (h : Plain s) (rest : List UInt8) (fuel : ℕ) :
    value (fuel + 1) (quote :: (s ++ quote :: rest)) = some (.leaf s, rest) := by
  have hbrace : expect openBrace (quote :: (s ++ quote :: rest)) = none :=
    expect_of_ne (by decide) (by decide) _
  have hbracket : expect openBracket (quote :: (s ++ quote :: rest)) = none :=
    expect_of_ne (by decide) (by decide) _
  have hquote : expect quote (quote :: (s ++ quote :: rest)) = some (s ++ quote :: rest) :=
    expect_self (by decide) _
  rw [value, hbrace]
  dsimp only
  rw [hbracket]
  dsimp only
  rw [hquote]
  dsimp only
  rw [string_append h]
  rfl

theorem value_emptyObject (rest : List UInt8) (fuel : ℕ) :
    value (fuel + 1) (openBrace :: closeBrace :: rest) = some (.node [], rest) := by
  rw [value, expect_self (by decide)]
  dsimp only
  rw [expect_self (by decide)]

/-- An object that starts with something else than a closing brace. -/
theorem value_object {b : UInt8} (hblank : isBlank b = false) (hb : b ≠ closeBrace)
    (rest : List UInt8) (fuel : ℕ) :
    value (fuel + 1) (openBrace :: b :: rest) =
      (members fuel (b :: rest)).map fun (ms, rest) => (.node ms, rest) := by
  rw [value, expect_self (by decide)]
  dsimp only
  rw [expect_of_ne hblank hb]

/-- What follows the member `m` of an object. -/
def membersAfter (fuel : ℕ) (m : List UInt8 × PTree) (input : List UInt8) :
    Option (List (List UInt8 × PTree) × List UInt8) :=
  match expect comma input with
  | some input => (members fuel input).map fun (ms, rest) => (m :: ms, rest)
  | none => (expect closeBrace input).map fun rest => ([m], rest)

/-- A member with a plain name. -/
theorem members_cons {key : List UInt8} (h : Plain key) (input : List UInt8) (fuel : ℕ) :
    members (fuel + 1) (quote :: (key ++ quote :: colon :: input)) =
      (value fuel input).bind fun (v, input) => membersAfter fuel (key, v) input := by
  rw [members, expect_self (by decide)]
  simp only [Option.bind_eq_bind, Option.bind_some, string_append h, expect_self (b := colon) rfl]
  congr 1
  funext ⟨v, input⟩
  rw [membersAfter]
  cases expect comma input with
  | some input =>
    dsimp only
    cases members fuel input <;> rfl
  | none =>
    dsimp only
    cases expect closeBrace input <;> rfl

/-- There is no member behind a comma. -/
theorem members_closeBrace (rest : List UInt8) (fuel : ℕ) :
    members fuel (closeBrace :: rest) = none := by
  cases fuel with
  | zero => rfl
  | succ fuel =>
    rw [members, expect_of_ne (by decide) (by decide)]
    rfl

namespace Doc

theorem stops_closing (comma : Bool) (rest : List UInt8) : Stops (closing comma ++ rest) := by
  cases comma
  · exact stops_cons (.inr rfl) rest
  · exact stops_cons (.inl rfl) _

theorem stops_writeMembers (ms : List (List UInt8 × Doc)) {rest : List UInt8} (h : Stops rest) :
    Stops (writeMembers ms ++ rest) := by
  cases ms with
  | nil => exact h
  | cons m ms =>
    rw [writeMembers]
    exact stops_cons (.inl rfl) _

/-- The end of an object without a further member. -/
theorem membersAfter_closing (comma : Bool) (rest : List UInt8) (fuel : ℕ)
    (m : List UInt8 × PTree) :
    membersAfter fuel m (closing comma ++ rest) = if comma then none else some ([m], rest) := by
  cases comma
  · have hcomma : expect 44 (closeBrace :: rest) = none := expect_of_ne (by decide) (by decide) _
    have hbrace : expect closeBrace (closeBrace :: rest) = some rest := expect_self (by decide) _
    show membersAfter fuel m (closeBrace :: rest) = _
    rw [membersAfter, hcomma, hbrace]
    rfl
  · have hcomma : expect 44 (44 :: closeBrace :: rest) = some (closeBrace :: rest) :=
      expect_self (by decide) _
    show membersAfter fuel m (44 :: closeBrace :: rest) = _
    rw [membersAfter, hcomma]
    dsimp only
    rw [members_closeBrace]
    rfl

/-- A member whose value is read. -/
theorem members_of_value {key : List UInt8} (hkey : Plain key) {d : Doc} {input : List UInt8}
    {fuel : ℕ} (h : value fuel (d.write ++ input) =
      if d.isComplete then some (d.tree, input) else none) :
    members (fuel + 1) (quote :: (key ++ quote :: colon :: (d.write ++ input))) =
      if d.isComplete then membersAfter fuel (key, d.tree) input else none := by
  rw [members_cons hkey, h]
  split <;> rfl

mutual

/-- A readable document is read if it is complete. -/
theorem value_write : ∀ (d : Doc), (∀ s ∈ d.strings, Plain s) →
    (∀ t ∈ d.tokens, ∀ b ∈ t, isLiteralChar b = true) → ∀ {rest : List UInt8}, Stops rest →
    ∀ (fuel : ℕ), d.write.length < fuel →
    value fuel (d.write ++ rest) = if d.isComplete then some (d.tree, rest) else none
  | literal token, _, htokens, rest, hrest, fuel + 1, _ => by
    rw [write, isComplete, tree]
    exact value_literal (htokens token List.mem_cons_self) hrest fuel
  | string s, hplain, _, rest, _, fuel + 1, _ => by
    have hs := value_string (hplain s List.mem_cons_self) rest fuel
    simpa [write, isComplete, tree] using hs
  | object [] comma, _, _, rest, _, fuel + 1, hfuel => by
    rw [write, List.cons_append, isComplete, areComplete, tree, trees]
    cases comma
    · exact value_emptyObject rest fuel
    · show value (fuel + 1) (openBrace :: 44 :: closeBrace :: rest) = none
      rw [value_object (by decide) (by decide)]
      cases fuel with
      | zero => rfl
      | succ fuel =>
        rw [members, expect_of_ne (by decide) (by decide)]
        rfl
  | object ((key, d) :: ms) comma, hplain, htokens, rest, _, fuel + 1, hfuel => by
    simp only [strings, stringsMembers, List.forall_mem_cons, List.forall_mem_append] at hplain
    simp only [tokens, tokensMembers, List.forall_mem_append] at htokens
    simp only [write, List.length_cons, List.length_append] at hfuel
    obtain ⟨hkey, hd, hms⟩ := hplain
    obtain ⟨fuel, rfl⟩ : ∃ n, fuel = n + 1 := ⟨fuel - 1, by omega⟩
    have htail : Stops (writeMembers ms ++ (closing comma ++ rest)) :=
      stops_writeMembers ms (stops_closing comma rest)
    have hvalue := members_of_value hkey (value_write d hd htokens.1 htail fuel (by omega))
    have hafter := membersAfter_write ms hms htokens.2 comma rest fuel (by omega) (key, d.tree)
    have hinput : (object ((key, d) :: ms) comma).write ++ rest =
        openBrace :: quote ::
          (key ++ quote :: colon :: (d.write ++ (writeMembers ms ++ (closing comma ++ rest)))) := by
      simp [write]
    rw [hinput, value_object (by decide) (by decide), hvalue, hafter, isComplete, areComplete,
      tree, trees]
    cases d.isComplete <;> cases areComplete ms <;> cases comma <;> rfl

/-- What follows a member. -/
theorem membersAfter_write : ∀ (ms : List (List UInt8 × Doc)), (∀ s ∈ stringsMembers ms, Plain s) →
    (∀ t ∈ tokensMembers ms, ∀ b ∈ t, isLiteralChar b = true) → ∀ (comma : Bool)
    (rest : List UInt8) (fuel : ℕ), (writeMembers ms).length ≤ fuel →
    ∀ (m : List UInt8 × PTree),
    membersAfter fuel m (writeMembers ms ++ (closing comma ++ rest)) =
      if areComplete ms && !comma then some (m :: trees ms, rest) else none
  | [], _, _, comma, rest, fuel, _, m => by
    rw [writeMembers, List.nil_append, membersAfter_closing, areComplete, trees]
    cases comma <;> rfl
  | (key, d) :: ms, hplain, htokens, comma, rest, fuel, hfuel, m => by
    simp only [stringsMembers, List.forall_mem_cons, List.forall_mem_append] at hplain
    simp only [tokensMembers, List.forall_mem_append] at htokens
    simp only [writeMembers, List.length_cons, List.length_append] at hfuel
    obtain ⟨hkey, hd, hms⟩ := hplain
    obtain ⟨fuel, rfl⟩ : ∃ n, fuel = n + 1 := ⟨fuel - 1, by omega⟩
    have htail : Stops (writeMembers ms ++ (closing comma ++ rest)) :=
      stops_writeMembers ms (stops_closing comma rest)
    have hvalue := members_of_value hkey (value_write d hd htokens.1 htail fuel (by omega))
    have hafter := membersAfter_write ms hms htokens.2 comma rest fuel (by omega) (key, d.tree)
    have hinput : writeMembers ((key, d) :: ms) ++ (closing comma ++ rest) =
        44 :: quote ::
          (key ++ quote :: colon :: (d.write ++ (writeMembers ms ++ (closing comma ++ rest)))) := by
      simp [writeMembers]
    have hcomma (input : List UInt8) : expect 44 (44 :: input) = some input :=
      expect_self (by decide) input
    rw [hinput, membersAfter, hcomma]
    dsimp only
    rw [hvalue, hafter, areComplete, trees]
    cases d.isComplete <;> cases areComplete ms <;> cases comma <;> rfl

end

/-- A readable document is a JSON text if its strings are encoded in UTF-8 and it is complete. -/
theorem readJson_write {d : Doc} (h : d.Readable) :
    readJson d.write =
      if (∀ s ∈ d.strings, IsUtf8 s) ∧ d.isComplete then some d.tree else none := by
  have hutf8 : IsUtf8 d.write ↔ ∀ s ∈ d.strings, IsUtf8 s := by
    have happend := isUtf8_write d h.tokens []
    rwa [List.append_nil, and_iff_left isUtf8_nil] at happend
  have hvalue := value_write d h.plain h.tokens stops_nil (d.write.length + 1) (Nat.lt_succ_self _)
  rw [List.append_nil] at hvalue
  rw [readJson, hvalue]
  simp only [hutf8]
  by_cases hs : ∀ s ∈ d.strings, IsUtf8 s
  · cases hcomplete : d.isComplete
    · simp
    · simp [skipBlanks]
  · simp [hs]

end Doc

end Json
