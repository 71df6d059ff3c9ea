import Mathlib.Data.List.Basic
import Mathlib.Data.List.Infix
import Mathlib.Data.List.DropRight
import Mathlib.Data.List.TakeWhile
import Mathlib.Tactic

/-!
# Text in byte strings

* `ascii`: the bytes of a text.
* `trim`, `toLower`: blanks around a text, and its case.
* `cutAt`, `splitText`: a text around the occurrences of another one.
* `lexicalCast`: the number that a text stands for.
* `cutLine`: the first line of a text and what follows it.
* `StringStream`: a stream that is written at its end and read line by line.
-/

namespace Text

/-- The bytes of an ASCII text. -/
def ascii (s : String) : List UInt8 := s.toList.map fun c => UInt8.ofNat c.toNat

/-- Rewrites a literal to its characters, which are cheaper to compute with than the literal. -/
theorem ascii_ofList (l : List Char) :
    ascii (String.ofList l) = l.map fun c => UInt8.ofNat c.toNat := by
  rw [ascii, String.toList_ofList]

abbrev crlf : List UInt8 := [13, 10]

/-- `std::isspace` in the classic locale. -/
def isSpace (b : UInt8) : Bool := b = 32 || (9 ≤ b && b ≤ 13)

/-- `boost::trim_left`. -/
def trimLeft (s : List UInt8) : List UInt8 := s.dropWhile isSpace

/-- `boost::trim_left` and `boost::trim_right`. -/
def trim (s : List UInt8) : List UInt8 := (trimLeft s).rdropWhile isSpace

def toLower (b : UInt8) : UInt8 := if 65 ≤ b ∧ b ≤ 90 then b + 32 else b

/-! ## Prefixes -/

section

variable {α : Type*} {p l r : List α} {x : α}

/-- A prefix ends before an element that it does not contain. -/
theorem prefix_of_prefix_append_cons (h : p <+: l ++ x :: r) (hx : x ∉ p) : p <+: l := by
  induction p generalizing l with
  | nil => exact List.nil_prefix
  | cons a p ih =>
    rcases l with _ | ⟨b, l⟩
    · obtain ⟨rfl, -⟩ := List.cons_prefix_cons.mp h
      exact absurd List.mem_cons_self hx
    · obtain ⟨rfl, hrest⟩ := List.cons_prefix_cons.mp h
      exact List.cons_prefix_cons.mpr ⟨rfl, ih hrest fun hmem => hx (List.mem_cons_of_mem _ hmem)⟩

/-- A prefix ends before an element, or goes on behind it. -/
theorem prefix_append_cons_cases (h : p <+: l ++ x :: r) :
    p <+: l ∨ ∃ q, p = l ++ x :: q ∧ q <+: r := by
  induction l generalizing p with
  | nil =>
    rcases List.prefix_cons_iff.mp h with rfl | ⟨q, rfl, hq⟩
    · exact .inl List.nil_prefix
    · exact .inr ⟨q, rfl, hq⟩
  | cons a l ih =>
    rcases List.prefix_cons_iff.mp h with rfl | ⟨t, rfl, ht⟩
    · exact .inl List.nil_prefix
    · rcases ih ht with hl | ⟨q, rfl, hq⟩
      · exact .inl (List.cons_prefix_cons.mpr ⟨rfl, hl⟩)
      · exact .inr ⟨q, rfl, hq⟩

end

/-- A text without some element lies on one side of it. -/
theorem infix_append_cons_cases {α : Type*} {p l r : List α} {x : α} (h : p <:+: l ++ x :: r)
    (hx : x ∉ p) : p <:+: l ∨ p <:+: r := by
  induction l with
  | nil =>
    rcases List.infix_cons_iff.mp h with hhere | hinfix
    · exact .inl (prefix_of_prefix_append_cons hhere hx).isInfix
    · exact .inr hinfix
  | cons a l ih =>
    rcases List.infix_cons_iff.mp h with hhere | hinfix
    · exact .inl (prefix_of_prefix_append_cons (l := a :: l) hhere hx).isInfix
    · rcases ih hinfix with hl | hr
      · exact .inl (hl.trans (List.infix_cons List.infix_rfl))
      · exact .inr hr

/-! ## Occurrences of a text -/

/-- What lies before and behind the first occurrence of a text. -/
def cutAt (sep : List UInt8) : List UInt8 → Option (List UInt8 × List UInt8)
  | [] => none
  | b :: s =>
    if sep <+: b :: s then some ([], (b :: s).drop sep.length)
    else (cutAt sep s).map fun (front, back) => (b :: front, back)

/-- The parts around at most `n` occurrences. -/
def splitTextUpTo (sep : List UInt8) : ℕ → List UInt8 → List (List UInt8)
  | 0, s => [s]
  | n + 1, s =>
    match cutAt sep s with
    | none => [s]
    | some (front, back) => front :: splitTextUpTo sep n back

/-- `boost::split_regex` with a text that is not empty as the expression. -/
def splitText (sep s : List UInt8) : List (List UInt8) := splitTextUpTo sep s.length s

section

variable {sep s front back : List UInt8}

theorem cutAt_eq_none (hsep : sep ≠ []) : cutAt sep s = none ↔ ¬ sep <:+: s := by
  induction s with
  | nil => simp [cutAt, hsep]
  | cons b s ih =>
    rw [cutAt, List.infix_cons_iff]
    split
    next hhere => simp [hhere]
    next hhere => simp [hhere, ih]

/-- The first occurrence, and no occurrence before it. -/
theorem cutAt_eq_some (h : cutAt sep s = some (front, back)) :
    s = front ++ sep ++ back ∧ ¬ (sep ≠ [] ∧ sep <:+: front) := by
  induction s generalizing front with
  | nil => cases h
  | cons b s ih =>
    rw [cutAt] at h
    split at h
    next hhere =>
      obtain ⟨rfl, rfl⟩ := Prod.mk.inj (Option.some.inj h)
      refine ⟨(List.prefix_iff_eq_append.mp hhere).symm, fun ⟨hne, hinfix⟩ => ?_⟩
      exact hne (List.infix_nil.mp hinfix)
    next hhere =>
      obtain ⟨⟨front, back⟩, hcut, heq⟩ := Option.map_eq_some_iff.mp h
      obtain ⟨rfl, rfl⟩ := Prod.mk.inj heq
      obtain ⟨rfl, hnot⟩ := ih hcut
      refine ⟨rfl, fun ⟨hne, hinfix⟩ => ?_⟩
      rcases List.infix_cons_iff.mp hinfix with hstart | hlater
      · refine hhere (hstart.trans ?_)
        rw [List.append_assoc]
        exact List.prefix_append (b :: front) _
      · exact hnot ⟨hne, hlater⟩

/-- A text that starts with an occurrence. -/
theorem cutAt_append_self (hsep : sep ≠ []) : cutAt sep (sep ++ back) = some ([], back) := by
  obtain ⟨b, sep, rfl⟩ := List.exists_cons_of_ne_nil hsep
  rw [List.cons_append, cutAt, ← List.cons_append, if_pos (List.prefix_append _ _), List.drop_left]

/-- Bytes with which no occurrence starts are skipped. -/
theorem cutAt_append_of_not_mem {b : UInt8} {l : List UInt8} (h : b ∉ l) :
    cutAt (b :: sep) (l ++ s) =
      (cutAt (b :: sep) s).map fun (front, back) => (l ++ front, back) := by
  induction l with
  | nil => simp
  | cons a l ih =>
    have hne : ¬ b :: sep <+: a :: (l ++ s) := fun hhere =>
      h ((List.cons_prefix_cons.mp hhere).1 ▸ List.mem_cons_self)
    rw [List.cons_append, cutAt, if_neg hne, ih fun hmem => h (List.mem_cons_of_mem _ hmem),
      Option.map_map]
    rfl

theorem splitTextUpTo_of_absent (hsep : sep ≠ []) (h : ¬ sep <:+: s) (n : ℕ) :
    splitTextUpTo sep n s = [s] := by
  rcases n with _ | n
  · rfl
  · rw [splitTextUpTo, (cutAt_eq_none hsep).mpr h]

theorem splitTextUpTo_of_cutAt {n : ℕ} (h : cutAt sep s = some (front, back)) :
    splitTextUpTo sep (n + 1) s = front :: splitTextUpTo sep n back := by
  rw [splitTextUpTo, h]

theorem splitTextUpTo_ne_nil (sep s : List UInt8) (n : ℕ) : splitTextUpTo sep n s ≠ [] := by
  rcases n with _ | n
  · exact List.cons_ne_nil _ _
  · rw [splitTextUpTo]
    split
    · exact List.cons_ne_nil _ _
    · exact List.cons_ne_nil _ _

/-- A text with an occurrence has more than one part. -/
theorem two_le_length_splitTextUpTo {n : ℕ} (hsep : sep ≠ []) (h : sep <:+: s) (hn : n ≠ 0) :
    2 ≤ (splitTextUpTo sep n s).length := by
  obtain ⟨n, rfl⟩ := Nat.exists_eq_succ_of_ne_zero hn
  obtain ⟨⟨front, back⟩, hcut⟩ : ∃ cut, cutAt sep s = some cut :=
    Option.ne_none_iff_exists'.mp fun hnone => (cutAt_eq_none hsep).mp hnone h
  rw [splitTextUpTo_of_cutAt hcut, List.length_cons]
  have := List.length_pos_iff.mpr (splitTextUpTo_ne_nil sep back n)
  omega

/-- No part of a split text holds the text at which it is split. -/
theorem not_infix_of_mem_splitTextUpTo {n : ℕ} {t : List UInt8} (hsep : sep ≠ [])
    (hn : s.length ≤ n) (h : t ∈ splitTextUpTo sep n s) : ¬ sep <:+: t := by
  induction n generalizing s with
  | zero =>
    rw [splitTextUpTo, List.mem_singleton] at h
    obtain rfl := List.length_eq_zero_iff.mp (Nat.le_zero.mp hn)
    rw [h]
    exact fun hinfix => hsep (List.infix_nil.mp hinfix)
  | succ n ih =>
    rw [splitTextUpTo] at h
    split at h
    next hnone => exact (List.mem_singleton.mp h) ▸ (cutAt_eq_none hsep).mp hnone
    next front back hsome =>
      obtain ⟨rfl, hfront⟩ := cutAt_eq_some hsome
      rcases List.mem_cons.mp h with rfl | hback
      · exact fun hinfix => hfront ⟨hsep, hinfix⟩
      · refine ih ?_ hback
        have := List.length_pos_iff.mpr hsep
        simp only [List.length_append] at hn
        omega

theorem not_infix_of_mem_splitText {t : List UInt8} (hsep : sep ≠ []) (h : t ∈ splitText sep s) :
    ¬ sep <:+: t :=
  not_infix_of_mem_splitTextUpTo hsep (Nat.le_refl _) h

end

/-- A line ends at the first line end. -/
theorem append_crlf_inj {a b x y : List UInt8} (ha : ¬ crlf <:+: a) (hb : ¬ crlf <:+: b)
    (h : a ++ (crlf ++ x) = b ++ (crlf ++ y)) : a = b ∧ x = y := by
  have hstart (c d : UInt8) (l : List UInt8) (hl : ¬ crlf <:+: c :: d :: l) : ¬ (c = 13 ∧ d = 10) := by
    rintro ⟨rfl, rfl⟩
    exact hl (List.prefix_append crlf l).isInfix
  induction a generalizing b with
  | nil =>
    rcases b with _ | ⟨c, _ | ⟨d, b⟩⟩
    · exact ⟨rfl, List.append_cancel_left h⟩
    · simp at h
    · simp at h
      exact absurd ⟨h.1.symm, h.2.1.symm⟩ (hstart c d b hb)
  | cons a as ih =>
    rcases b with _ | ⟨c, b⟩
    · rcases as with _ | ⟨d, as⟩
      · simp at h
      · simp at h
        exact absurd ⟨h.1, h.2.1⟩ (hstart a d as ha)
    · obtain ⟨rfl, htail⟩ := List.cons.inj h
      obtain ⟨rfl, rfl⟩ := ih (fun hi => ha (List.infix_cons hi)) (fun hi => hb (List.infix_cons hi)) htail
      exact ⟨rfl, rfl⟩

/-- A text tells the lines it starts with, if the rest is known. -/
theorem lines_inj {as bs : List (List UInt8)} {x : List UInt8} (ha : ∀ l ∈ as, ¬ crlf <:+: l)
    (hb : ∀ l ∈ bs, ¬ crlf <:+: l)
    (h : as.flatMap (· ++ crlf) ++ x = bs.flatMap (· ++ crlf) ++ x) : as = bs := by
  induction as generalizing bs with
  | nil =>
    rcases bs with _ | ⟨b, bs⟩
    · rfl
    · have hlen := congrArg List.length h
      simp at hlen
      omega
  | cons a as ih =>
    rcases bs with _ | ⟨b, bs⟩
    · have hlen := congrArg List.length h
      simp at hlen
      omega
    · simp only [List.flatMap_cons, List.append_assoc] at h
      obtain ⟨rfl, hrest⟩ := append_crlf_inj (ha a List.mem_cons_self) (hb b List.mem_cons_self) h
      rw [ih (fun l hl => ha l (List.mem_cons_of_mem _ hl))
        (fun l hl => hb l (List.mem_cons_of_mem _ hl)) hrest]

/-! ## Numbers -/

/-- All characters are digits. -/
def AllDigits (s : List UInt8) : Prop := ∀ b ∈ s, 48 ≤ b ∧ b ≤ 57

instance (s : List UInt8) : Decidable (AllDigits s) :=
  List.decidableBAll (fun b => 48 ≤ b ∧ b ≤ 57) s

/-- The digits of a number below `2 ^ bits`. -/
def digits (bits : ℕ) (s : List UInt8) : Option ℕ :=
  if s ≠ [] ∧ AllDigits s then
    let v := s.foldl (fun v b => v * 10 + (b.toNat - 48)) 0
    if v < 2 ^ bits then some v else none
  else none

/-- `boost::lexical_cast` to an unsigned type: a number may have a sign. -/
def lexicalCast (bits : ℕ) : List UInt8 → Option ℕ
  | 45 :: s => (digits bits s).map fun v => (2 ^ bits - v) % 2 ^ bits
  | 43 :: s => digits bits s
  | s => digits bits s

/-! ## Lines -/

/-- The text up to the first line feed, and what follows the line feed, if there is one. -/
def cutLine (s : List UInt8) : List UInt8 × Option (List UInt8) :=
  match s.dropWhile (· ≠ 10) with
  | [] => (s, none)
  | _ :: rest => (s.takeWhile (· ≠ 10), some rest)

variable {line rest : List UInt8}

theorem cutLine_append (h : 10 ∉ line) : cutLine (line ++ 10 :: rest) = (line, some rest) := by
  have hline : ∀ b ∈ line, (b ≠ 10 : Bool) = true := fun b hb =>
    decide_eq_true fun heq => h (heq ▸ hb)
  have hdrop : (line ++ 10 :: rest).dropWhile (· ≠ 10) = 10 :: rest := by
    rw [List.dropWhile_append_of_pos hline]
    rfl
  have htake : (line ++ 10 :: rest).takeWhile (· ≠ 10) = line := by
    rw [List.takeWhile_append_of_pos hline]
    exact List.append_nil line
  rw [cutLine, hdrop]
  exact congrArg (·, some rest) htake

theorem cutLine_of_not_mem (h : 10 ∉ line) : cutLine line = (line, none) := by
  have hdrop : line.dropWhile (· ≠ 10) = [] :=
    List.dropWhile_eq_nil_iff.mpr fun b hb => decide_eq_true fun heq => h (heq ▸ hb)
  rw [cutLine, hdrop]

/-! ## String streams -/

/-- `std::stringstream`: what it holds, what has not been read of it, and its state bits. -/
structure StringStream where
  str : List UInt8 := []
  unread : List UInt8 := []
  eof : Bool := false
  fail : Bool := false

namespace StringStream

variable (s : StringStream)

def good : Bool := !s.eof && !s.fail

def clear : StringStream := { s with eof := false, fail := false }

/-- Nothing is written to a stream that is not good. -/
def write (buf : List UInt8) : StringStream :=
  if s.good then { s with str := s.str ++ buf, unread := s.unread ++ buf }
  else { s with fail := true }

/-- `std::getline`: a last line without a line feed counts as a line. -/
def getline (line : List UInt8) : StringStream × List UInt8 :=
  if s.good then
    if s.unread = [] then ({ s with eof := true, fail := true }, [])
    else
      match cutLine s.unread with
      | (line, none) => ({ s with unread := [], eof := true }, line)
      | (line, some rest) => ({ s with unread := rest }, line)
  else ({ s with fail := true }, line)

variable {s}

theorem write_of_good (h : s.good = true) (buf : List UInt8) :
    s.write buf = { s with str := s.str ++ buf, unread := s.unread ++ buf } := by
  rw [write, if_pos h]

@[simp]
theorem good_clear : s.clear.good = true := rfl

theorem getline_of_not_good (h : s.good = false) (line : List UInt8) :
    s.getline line = ({ s with fail := true }, line) := by
  rw [getline, if_neg (by simp [h])]

theorem getline_of_empty (h : s.good = true) (hempty : s.unread = []) (old : List UInt8) :
    s.getline old = ({ s with eof := true, fail := true }, []) := by
  rw [getline, if_pos h, if_pos hempty]

/-- A line that ends with a line feed. -/
theorem getline_append (h : s.good = true) (hline : 10 ∉ line) (hunread : s.unread = line ++ 10 :: rest)
    (old : List UInt8) : s.getline old = ({ s with unread := rest }, line) := by
  rw [getline, if_pos h, if_neg (by rw [hunread]; simp), hunread, cutLine_append hline]

/-- The last line, when it does not end with a line feed. -/
theorem getline_last (h : s.good = true) (hline : 10 ∉ line) (hne : line ≠ []) (hunread : s.unread = line)
    (old : List UInt8) : s.getline old = ({ s with unread := [], eof := true }, line) := by
  rw [getline, if_pos h, if_neg (by rw [hunread]; exact hne), hunread, cutLine_of_not_mem hline]

end StringStream

end Text
