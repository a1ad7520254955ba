/-!
# Texts and blanks

A text is the list of its characters. Here: which characters are blank, the text without the blanks around it, the
words between the blanks, the two sides of a mark in the text, and texts that are made of lines.
-/

namespace MediaSession

/-- A text: a description, a line or a field of one, or the value of a setting, as the list of its characters. -/
abbrev Text := List Char

namespace Text

/-- The blanks are the twenty-five characters of the Unicode property White_Space. -/
def isBlank (c : Char) : Bool :=
  let n := c.toNat
  (0x9 ≤ n && n ≤ 0xD) || n == 0x20 || n == 0x85 || n == 0xA0 || n == 0x1680 || (0x2000 ≤ n && n ≤ 0x200A) ||
    n == 0x2028 || n == 0x2029 || n == 0x202F || n == 0x205F || n == 0x3000

/-- The text from its first character that is not blank. -/
def trimStart (t : Text) : Text := t.dropWhile isBlank

/-- The text up to its last character that is not blank. -/
def trimEnd (t : Text) : Text := (t.reverse.dropWhile isBlank).reverse

/-- The text without the blanks at its two ends. -/
def trim (t : Text) : Text := trimEnd (trimStart t)

/-- The longest runs of characters that are not blank, in order. -/
def words (t : Text) : List Text := (t.splitOnP isBlank).filter (· ≠ [])

/-- The text before the first character that satisfies `p`, and the text after it; nothing when there is none. -/
def cutWhere? (p : Char → Bool) : Text → Option (Text × Text)
  | [] => none
  | c :: t => if p c then some ([], t) else (cutWhere? p t).map fun (before, after) => (c :: before, after)

/-- The text before the first `mark`, and the text after it. -/
def cut? (mark : Char) (t : Text) : Option (Text × Text) := cutWhere? (· == mark) t

/-- Whether `word` stands somewhere in the text. -/
def includes (word : Text) : Text → Bool
  | [] => word.isEmpty
  | c :: t => word.isPrefixOf (c :: t) || includes word t

/-- Whether two texts differ at most in the case of ASCII letters. -/
def sameLetters (a b : Text) : Bool := a.map Char.toLower == b.map Char.toLower

/-- The lines of a written text: each is followed by a carriage return and a line feed. -/
def ofLines (lines : List Text) : Text := lines.flatMap (· ++ ['\r', '\n'])

/-- The UTF-8 octets of the text. -/
def octets (t : Text) : List UInt8 := t.flatMap String.utf8EncodeChar

/-! ## Small facts -/

/-- There is no cut exactly where there is no character to cut at. -/
theorem cutWhere?_eq_none_iff {p : Char → Bool} {t : Text} : cutWhere? p t = none ↔ ∀ c ∈ t, p c = false := by
  induction t with
  | nil => simp [cutWhere?]
  | cons c t ih =>
    simp only [cutWhere?]
    split <;> simp_all

/-- A cut loses nothing but the character it is made at, which is the first of its kind. -/
theorem eq_of_cutWhere? {p : Char → Bool} {t before after : Text} (h : cutWhere? p t = some (before, after)) :
    (∀ c ∈ before, p c = false) ∧ ∃ mark, p mark = true ∧ t = before ++ mark :: after := by
  induction t generalizing before with
  | nil => simp [cutWhere?] at h
  | cons c t ih =>
    simp only [cutWhere?] at h
    split at h
    · rename_i hc
      simp only [Option.some.injEq, Prod.mk.injEq] at h
      obtain ⟨rfl, rfl⟩ := h
      exact ⟨by simp, c, hc, rfl⟩
    · rename_i hc
      obtain ⟨⟨b, a⟩, hba, heq⟩ := Option.map_eq_some_iff.1 h
      simp only [Prod.mk.injEq] at heq
      obtain ⟨rfl, rfl⟩ := heq
      obtain ⟨hb, mark, hm, rfl⟩ := ih hba
      refine ⟨?_, mark, hm, rfl⟩
      intro d hd
      rcases List.mem_cons.1 hd with rfl | hd
      · simpa using hc
      · exact hb d hd

end Text

end MediaSession
