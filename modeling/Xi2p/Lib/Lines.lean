import Xi2p.Lib.Text

/-!
# Lines and numbers of a text

* `lines`, `unlines`: a text and the lines that `std::getline` delivers of it.
* `keepLines`: the lines without some byte.
* `extractWord`, `extractUnsigned`, `read`: what else is taken from a stream.
-/

namespace Text

/-! ## Lines -/

/-- The lines of a text. A last one without a line feed counts unless it is empty. -/
def lines : List UInt8 → List (List UInt8)
  | [] => []
  | b :: s =>
    if b = 10 then [] :: lines s
    else
      match lines s with
      | [] => [[b]]
      | line :: rest => (b :: line) :: rest

/-- Lines with a line feed behind each. -/
def unlines (ls : List (List UInt8)) : List UInt8 := ls.flatMap (· ++ [10])

/-- The text is empty or ends with a line feed. -/
def EndsInLine (s : List UInt8) : Prop := s = [] ∨ ∃ t, s = t ++ [10]

/-- The lines without a byte, with a line feed behind each. -/
def keepLines (c : UInt8) (s : List UInt8) : List UInt8 := unlines ((lines s).filter (c ∉ ·))

variable {line rest s t : List UInt8} {c : UInt8}

@[simp]
theorem lines_nil : lines [] = [] := rfl

theorem lines_append (h : 10 ∉ line) : lines (line ++ 10 :: rest) = line :: lines rest := by
  induction line with
  | nil => rw [List.nil_append, lines, if_pos rfl]
  | cons b line ih =>
    rw [List.mem_cons, not_or] at h
    rw [List.cons_append, lines, if_neg (Ne.symm h.1), ih h.2]

theorem lines_of_not_mem (hne : line ≠ []) (h : 10 ∉ line) : lines line = [line] := by
  induction line with
  | nil => exact absurd rfl hne
  | cons b line ih =>
    rw [List.mem_cons, not_or] at h
    rw [lines, if_neg (Ne.symm h.1)]
    by_cases hnil : line = []
    · rw [hnil]
      rfl
    · rw [ih hnil h.2]

/-- Induction on the lines of a text. -/
theorem lineInduction {P : List UInt8 → Prop} (hnil : P [])
    (hlast : ∀ line, line ≠ [] → 10 ∉ line → P line)
    (hline : ∀ line rest, 10 ∉ line → P rest → P (line ++ 10 :: rest)) (s : List UInt8) : P s := by
  induction hlen : s.length using Nat.strong_induction_on generalizing s with
  | _ n ih =>
    by_cases h : 10 ∈ s
    · obtain ⟨line, rest, rfl, hnot⟩ := List.eq_append_cons_of_mem h
      refine hline line rest hnot (ih rest.length ?_ rest rfl)
      rw [← hlen, List.length_append, List.length_cons]
      omega
    · by_cases hs : s = []
      · rw [hs]
        exact hnil
      · exact hlast s hs h

theorem endsInLine_append_cons (line : List UInt8) (h : EndsInLine rest) :
    EndsInLine (line ++ 10 :: rest) := by
  rcases h with rfl | ⟨t, rfl⟩
  · exact .inr ⟨line, rfl⟩
  · exact .inr ⟨line ++ 10 :: t, by simp⟩

/-- The rest of a text that ends in a line. -/
theorem EndsInLine.of_append_cons (h : EndsInLine (line ++ 10 :: rest)) : EndsInLine rest := by
  rcases List.eq_nil_or_concat rest with rfl | ⟨t, b, rfl⟩
  · exact .inl rfl
  · refine .inr ⟨t, ?_⟩
    rcases h with h | ⟨u, h⟩
    · exact absurd h (by simp)
    · have hlast := congrArg List.getLast? h
      simp only [List.concat_eq_append] at hlast ⊢
      rw [← List.cons_append, ← List.append_assoc, List.getLast?_concat, List.getLast?_concat] at hlast
      rw [Option.some.inj hlast]

theorem EndsInLine.eq_nil_of_not_mem (h : EndsInLine line) (hnot : 10 ∉ line) : line = [] := by
  rcases h with rfl | ⟨t, rfl⟩
  · rfl
  · exact absurd (List.mem_append_right t (List.mem_singleton_self 10)) hnot

theorem endsInLine_unlines (ls : List (List UInt8)) : EndsInLine (unlines ls) := by
  rcases List.eq_nil_or_concat ls with rfl | ⟨ls, line, rfl⟩
  · exact .inl rfl
  · exact .inr ⟨unlines ls ++ line, by simp [unlines]⟩

/-! ## Lines that are kept -/

theorem keepLines_append_cons (h : 10 ∉ line) :
    keepLines c (line ++ 10 :: rest) =
      (if c ∈ line then [] else line ++ [10]) ++ keepLines c rest := by
  rw [keepLines, lines_append h, List.filter_cons]
  by_cases hc : c ∈ line
  · simp [hc, keepLines]
  · simp [hc, keepLines, unlines]

theorem keepLines_of_not_mem (hne : line ≠ []) (h : 10 ∉ line) :
    keepLines c line = if c ∈ line then [] else line ++ [10] := by
  rw [keepLines, lines_of_not_mem hne h]
  by_cases hc : c ∈ line
  · simp [hc, unlines]
  · simp [hc, unlines]

theorem endsInLine_keepLines (c : UInt8) (s : List UInt8) : EndsInLine (keepLines c s) :=
  endsInLine_unlines _

/-- The byte is not in the lines that are kept. -/
theorem not_mem_keepLines (hc : c ≠ 10) (s : List UInt8) : c ∉ keepLines c s := by
  intro hmem
  rw [keepLines, unlines, List.mem_flatMap] at hmem
  obtain ⟨line, hline, hmem⟩ := hmem
  have hnot : c ∉ line := by simpa using (List.mem_filter.mp hline).2
  rcases List.mem_append.mp hmem with hmem | hmem
  · exact hnot hmem
  · exact hc (List.mem_singleton.mp hmem)

/-- The parts of a text can be looked at one by one where the first one ends in a line. -/
theorem keepLines_append (h : EndsInLine s) (t : List UInt8) :
    keepLines c (s ++ t) = keepLines c s ++ keepLines c t := by
  induction s using lineInduction with
  | hnil => rfl
  | hlast line hne hnot => exact absurd (h.eq_nil_of_not_mem hnot) hne
  | hline line rest hnot ih =>
    rw [List.append_assoc, List.cons_append, keepLines_append_cons hnot, keepLines_append_cons hnot,
      ih h.of_append_cons, List.append_assoc]

/-- A text without the byte. -/
theorem keepLines_eq_self (hends : EndsInLine s) (h : c ∉ s) : keepLines c s = s := by
  induction s using lineInduction with
  | hnil => rfl
  | hlast line hne hnot => exact absurd (hends.eq_nil_of_not_mem hnot) hne
  | hline line rest hnot ih =>
    have hline : c ∉ line := fun hmem => h (List.mem_append_left _ hmem)
    have hrest : c ∉ rest := fun hmem => h (List.mem_append_right _ (List.mem_cons_of_mem _ hmem))
    rw [keepLines_append_cons hnot, if_neg hline, ih hends.of_append_cons hrest, List.append_assoc,
      List.singleton_append]

theorem length_keepLines_le (c : UInt8) (s : List UInt8) : (keepLines c s).length ≤ s.length + 1 := by
  induction s using lineInduction with
  | hnil => exact Nat.zero_le _
  | hlast line hne hnot =>
    rw [keepLines_of_not_mem hne hnot]
    split_ifs <;> simp
  | hline line rest hnot ih =>
    rw [keepLines_append_cons hnot, List.length_append, List.length_append, List.length_cons]
    split_ifs
    · simp only [List.length_nil]
      omega
    · rw [List.length_append, List.length_singleton]
      omega

/-- The lines of a part in front that does not have the byte are kept. -/
theorem count_le_count_keepLines (hfront : t <+: s) (h : c ∉ t) : t.count 10 ≤ (keepLines c s).count 10 := by
  induction s using lineInduction generalizing t with
  | hnil =>
    rw [List.prefix_nil.mp hfront]
    exact Nat.zero_le _
  | hlast line hne hnot =>
    rw [List.count_eq_zero_of_not_mem fun hmem => hnot (hfront.subset hmem)]
    exact Nat.zero_le _
  | hline line rest hnot ih =>
    rcases prefix_append_cons_cases hfront with hfirst | ⟨t', rfl, hmore⟩
    · rw [List.count_eq_zero_of_not_mem fun hmem => hnot (hfirst.subset hmem)]
      exact Nat.zero_le _
    · have hline : c ∉ line := fun hmem => h (List.mem_append_left _ hmem)
      have hrest : c ∉ t' := fun hmem => h (List.mem_append_right _ (List.mem_cons_of_mem _ hmem))
      have hle := ih hmore hrest
      rw [keepLines_append_cons hnot, if_neg hline]
      simp only [List.count_append, List.count_cons_self]
      omega

/-! ## Streams -/

/-- The value of a digit. -/
def digitValue (b : UInt8) : ℕ :=
  if 48 ≤ b ∧ b ≤ 57 then b.toNat - 48
  else if 97 ≤ b ∧ b ≤ 102 then b.toNat - 87
  else if 65 ≤ b ∧ b ≤ 70 then b.toNat - 55
  else 16

def isDigit (base : ℕ) (b : UInt8) : Bool := digitValue b < base

/-- The number that digits stand for. -/
def number (base : ℕ) (digits : List UInt8) : ℕ := digits.foldl (fun v b => v * base + digitValue b) 0

/-- A text without the prefix of a number in base 16. -/
def dropPrefix (base : ℕ) (text : List UInt8) : List UInt8 :=
  match text with
  | 48 :: 120 :: rest | 48 :: 88 :: rest => if base = 16 then rest else text
  | _ => text

/-- A text without its sign, and whether it is negative. -/
def dropSign : List UInt8 → Bool × List UInt8
  | 45 :: rest => (true, rest)
  | 43 :: rest => (false, rest)
  | text => (false, text)

namespace StringStream

/-- White space in front of an extraction. -/
def skipSpace (s : StringStream) : StringStream :=
  if s.good then
    let unread := s.unread.dropWhile isSpace
    if unread = [] then { s with unread, eof := true, fail := true } else { s with unread }
  else { s with fail := true }

/-- `operator>>` to a string. -/
def extractWord (s : StringStream) : StringStream × List UInt8 :=
  let s := s.skipSpace
  if s.fail then (s, [])
  else
    let unread := s.unread.dropWhile fun b => !isSpace b
    ({ s with unread, eof := unread = [] }, s.unread.takeWhile fun b => !isSpace b)

/-- `operator>>` to an unsigned type, in base 10 or 16; none if it fails. -/
def extractUnsigned (base bits : ℕ) (s : StringStream) : StringStream × Option ℕ :=
  let s := s.skipSpace
  if s.fail then (s, none)
  else
    let (negative, text) := dropSign s.unread
    let text := dropPrefix base text
    let unread := text.dropWhile (isDigit base)
    let value := number base (text.takeWhile (isDigit base))
    let s := { s with unread, eof := unread = [] }
    if text.takeWhile (isDigit base) = [] ∨ 2 ^ bits ≤ value then ({ s with fail := true }, none)
    else (s, some (if negative then (2 ^ bits - value) % 2 ^ bits else value))

/-- `read`: what there is of so many bytes. -/
def read (s : StringStream) (n : ℕ) : StringStream × List UInt8 :=
  if s.good then
    if n ≤ s.unread.length then ({ s with unread := s.unread.drop n }, s.unread.take n)
    else ({ s with unread := [], eof := true, fail := true }, s.unread)
  else ({ s with fail := true }, [])

/-- The lines that can be taken until `std::getline` fails. -/
def linesLeft (s : StringStream) : List (List UInt8) := if s.good then lines s.unread else []

variable {s : StringStream} {digits rest word : List UInt8} {b : UInt8}

/-- The lines that are left are those that `std::getline` delivers. -/
theorem linesLeft_eq (s : StringStream) (old : List UInt8) :
    s.linesLeft =
      if (s.getline old).1.fail then [] else (s.getline old).2 :: (s.getline old).1.linesLeft := by
  unfold linesLeft
  cases hgood : s.good with
  | false => simp [getline_of_not_good hgood]
  | true =>
    have hfail : s.fail = false := by
      simp only [good, Bool.and_eq_true, Bool.not_eq_true'] at hgood
      exact hgood.2
    rw [if_pos rfl]
    by_cases hmem : 10 ∈ s.unread
    · obtain ⟨line, rest, hunread, hnot⟩ := List.eq_append_cons_of_mem hmem
      rw [getline_append hgood hnot hunread]
      have hgood' : ({ s with unread := rest } : StringStream).good = true := hgood
      rw [if_neg (by rw [hfail]; decide), if_pos hgood', hunread, lines_append hnot]
    · by_cases hempty : s.unread = []
      · simp [getline_of_empty hgood hempty, hempty]
      · rw [getline_last hgood hmem hempty rfl]
        have hgood' : ({ s with unread := [], eof := true } : StringStream).good ≠ true := Bool.false_ne_true
        rw [if_neg (by rw [hfail]; decide), if_neg hgood', lines_of_not_mem hempty hmem]

theorem not_isSpace_of_isDigit {base : ℕ} (hbase : base ≤ 16) (h : isDigit base b = true) :
    isSpace b = false := by
  by_contra hspace
  rw [Bool.not_eq_false] at hspace
  have hvalue : digitValue b < base := by simpa [isDigit] using h
  have h16 : digitValue b = 16 := by
    simp only [isSpace, Bool.or_eq_true, Bool.and_eq_true, decide_eq_true_eq] at hspace
    unfold digitValue
    rcases hspace with rfl | ⟨h9, h13⟩
    · rfl
    · rw [UInt8.le_iff_toNat_le] at h9 h13
      rw [if_neg, if_neg, if_neg]
      all_goals
        rintro ⟨hle, -⟩
        rw [UInt8.le_iff_toNat_le] at hle
        simp at h13 hle
        omega
  omega

theorem eof_of_good (h : s.good = true) : s.eof = false := by
  simp only [good, Bool.and_eq_true, Bool.not_eq_true'] at h
  exact h.1

theorem fail_of_good (h : s.good = true) : s.fail = false := by
  simp only [good, Bool.and_eq_true, Bool.not_eq_true'] at h
  exact h.2

/-- White space in front of something else. -/
theorem skipSpace_append (h : s.good = true) {spaces : List UInt8} (hspaces : ∀ c ∈ spaces, isSpace c = true)
    (hb : isSpace b = false) (hunread : s.unread = spaces ++ b :: rest) :
    s.skipSpace = { s with unread := b :: rest } := by
  have hdrop : s.unread.dropWhile isSpace = b :: rest := by
    rw [hunread, List.dropWhile_append_of_pos hspaces, List.dropWhile_cons_of_neg (by rw [hb]; decide)]
  rw [skipSpace, if_pos h]
  dsimp only
  rw [hdrop, if_neg (List.cons_ne_nil _ _)]

/-- A word and white space behind it. -/
theorem extractWord_append (h : s.good = true) (hne : word ≠ []) (hword : ∀ c ∈ word, isSpace c = false)
    (hb : isSpace b = true) (hunread : s.unread = word ++ b :: rest) :
    s.extractWord = ({ s with unread := b :: rest }, word) := by
  obtain ⟨c, word, rfl⟩ := List.exists_cons_of_ne_nil hne
  have hskip : s.skipSpace = s := by
    have hunread' : s.unread = [] ++ c :: (word ++ b :: rest) := hunread
    rw [skipSpace_append h (List.forall_mem_nil _) (hword c List.mem_cons_self) hunread',
      ← List.cons_append, ← hunread]
  have hpos : ∀ d ∈ c :: word, (!isSpace d) = true := fun d hd => by rw [hword d hd]; rfl
  have hdrop : s.unread.dropWhile (fun b => !isSpace b) = b :: rest := by
    rw [hunread, List.dropWhile_append_of_pos hpos]
    simp [hb]
  have htake : s.unread.takeWhile (fun b => !isSpace b) = c :: word := by
    rw [hunread, List.takeWhile_append_of_pos hpos]
    simp [hb]
  rw [extractWord, hskip, fail_of_good h]
  dsimp only
  rw [if_neg (by decide), hdrop, htake, decide_eq_false (List.cons_ne_nil b rest), eof_of_good h]

theorem dropSign_of_isDigit {base : ℕ} (hbase : base ≤ 16) (h : isDigit base b = true) :
    dropSign (b :: rest) = (false, b :: rest) := by
  unfold dropSign
  split
  next heq =>
    rw [(List.cons.inj heq).1] at h
    simp [isDigit, digitValue] at h
    omega
  next heq =>
    rw [(List.cons.inj heq).1] at h
    simp [isDigit, digitValue] at h
    omega
  next => rfl

/-- Digits have no prefix. -/
theorem dropPrefix_of_isDigit {base : ℕ} (hbase : base ≤ 16) (hdigits : ∀ c ∈ digits, isDigit base c = true)
    (hne : digits ≠ []) (hb : isSpace b = true) :
    dropPrefix base (digits ++ b :: rest) = digits ++ b :: rest := by
  have hsecond (c d : UInt8) (more : List UInt8) (heq : digits ++ b :: rest = c :: d :: more)
      (hd : isSpace d = false) (hdigit : isDigit 16 d = false) : False := by
    rcases digits with _ | ⟨e, _ | ⟨f, digits⟩⟩
    · exact hne rfl
    · rw [(List.cons.inj (List.cons.inj heq).2).1, hd] at hb
      cases hb
    · have hf := hdigits f (by simp)
      rw [(List.cons.inj (List.cons.inj heq).2).1] at hf
      simp only [isDigit, decide_eq_true_eq, decide_eq_false_iff_not] at hf hdigit
      omega
  unfold dropPrefix
  split
  next heq => exact (hsecond _ _ _ heq (by decide) (by decide)).elim
  next heq => exact (hsecond _ _ _ heq (by decide) (by decide)).elim
  next => rfl

/-- A number with white space around it. -/
theorem extractUnsigned_append {base bits : ℕ} (hbase : base ≤ 16) (h : s.good = true)
    {spaces : List UInt8} (hspaces : ∀ c ∈ spaces, isSpace c = true) (hne : digits ≠ [])
    (hdigits : ∀ c ∈ digits, isDigit base c = true) (hb : isSpace b = true)
    (hunread : s.unread = spaces ++ (digits ++ b :: rest)) :
    s.extractUnsigned base bits =
      if 2 ^ bits ≤ number base digits then ({ s with unread := b :: rest, fail := true }, none)
      else ({ s with unread := b :: rest }, some (number base digits)) := by
  obtain ⟨c, more, hcons⟩ := List.exists_cons_of_ne_nil hne
  have hc : isDigit base c = true := hdigits c (by rw [hcons]; exact List.mem_cons_self)
  have hskip : s.skipSpace = { s with unread := digits ++ b :: rest } := by
    rw [hcons] at hunread ⊢
    exact skipSpace_append h hspaces (not_isSpace_of_isDigit hbase hc) hunread
  have hsign : dropSign (digits ++ b :: rest) = (false, digits ++ b :: rest) := by
    rw [hcons]
    exact dropSign_of_isDigit hbase hc
  have hneg : ¬ isDigit base b = true := fun hdigit => by
    rw [not_isSpace_of_isDigit hbase hdigit] at hb
    cases hb
  rw [extractUnsigned, hskip, fail_of_good h]
  dsimp only
  rw [if_neg (by decide), hsign]
  dsimp only
  rw [dropPrefix_of_isDigit hbase hdigits hne hb, List.dropWhile_append_of_pos hdigits,
    List.takeWhile_append_of_pos hdigits, List.dropWhile_cons_of_neg hneg, List.takeWhile_cons_of_neg hneg,
    List.append_nil, decide_eq_false (List.cons_ne_nil b rest), eof_of_good h]
  simp only [hne, false_or, Bool.false_eq_true, if_false]

end StringStream

end Text
