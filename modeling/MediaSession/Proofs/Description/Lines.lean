import MediaSession.Description.Line
import MediaSession.Proofs.Text.Pieces

/-!
# Lines read and written

The lines of a joined text are those of its parts, and a written line is read back but for the blanks at its end. An
attribute that was read keeps its name and value when it is written and read again, with one exception: where there is no
value, blanks at the end of the name are lost, because they are at the end of the line then.

An `m` line cuts a description: the blocks of what comes before it and of what it begins do not depend on each other.
-/

namespace MediaSession

/-! ## Texts as they stand in a line -/

/-- A text within one line, without a blank at its end. -/
def Text.Tidy (t : Text) : Prop := '\n' ∉ t ∧ Text.trimEnd t = t

theorem Text.tidy_trim {t : Text} (h : '\n' ∉ t) : (Text.trim t).Tidy :=
  ⟨fun hm => h (mem_of_mem_trim hm), trimEnd_trim t⟩

/-- A word has no line feed. -/
theorem Text.lineFeed_notMem {word : Text} (h : ∀ c ∈ word, isBlank c = false) : '\n' ∉ word := fun hm =>
  absurd (h _ hm) (by decide)

/-- A text that ends in a word is tidy when there is no line feed before the word. -/
theorem Text.tidy_append_word {before word : Text} (hb : '\n' ∉ before) (hne : word ≠ [])
    (hw : ∀ c ∈ word, isBlank c = false) : (before ++ word).Tidy :=
  ⟨List.not_mem_append hb (lineFeed_notMem hw), trimEnd_append hne (trimEnd_of_forall hw)⟩

/-- What follows a character that is not blank in a tidy text is tidy. -/
theorem Text.Tidy.of_append_cons {before after : Text} {c : Char} (hc : isBlank c = false)
    (h : Tidy (before ++ c :: after)) : Tidy after := by
  refine ⟨fun hm => h.1 (List.mem_append_right _ (List.mem_cons_of_mem _ hm)), ?_⟩
  have heq := h.2
  rw [trimEnd_append_cons hc, List.append_cancel_left_eq, List.cons.injEq] at heq
  exact heq.2

namespace Line

/-- The lines of two texts that are joined by a line feed are the lines of the one and then of the other. -/
theorem readAll_append (a b : Text) : readAll (a ++ '\n' :: b) = readAll a ++ readAll b := by
  rw [readAll, List.splitOn_append_cons_self, List.filterMap_append]
  rfl

/-- The lines of a written text are read one by one. -/
theorem readAll_ofLines {lines : List Text} (h : ∀ line ∈ lines, '\n' ∉ line) :
    readAll (Text.ofLines lines) = lines.filterMap fun line => read? (Text.trim line) := by
  rw [readAll, Text.splitOn_ofLines h, List.filterMap_append, List.filterMap_map]
  have hcr : ∀ line : Text, Text.trim (line ++ ['\r']) = Text.trim line := fun line => Text.trim_concat_blank rfl
  simp only [Function.comp_def, hcr]
  exact List.append_nil _

/-- A line with a letter is read but for the blanks at its end. -/
theorem read?_trim_cons (letter : Char) (hb : Text.isBlank letter = false) (ha : letter.toNat < 128) (value : Text) :
    read? (Text.trim (letter :: '=' :: value)) = some (ofLetter letter (Text.trimEnd value)) := by
  have heq : Text.trimEnd ('=' :: value) = '=' :: Text.trimEnd value := Text.trimEnd_append_cons rfl [] value
  rw [Text.trim_cons hb, heq, read?, if_pos ha]

/-- Values of lines are tidy, and attributes come from tidy values. -/
def Tidy : Line → Prop
  | .timing value => value.Tidy
  | .bandwidth value => value.Tidy
  | .media value => value.Tidy
  | .attribute a => ∃ value : Text, value.Tidy ∧ a = .ofValue value
  | .other _ value => value.Tidy

theorem tidy_ofLetter {value : Text} (h : value.Tidy) (letter : Char) : (ofLetter letter value).Tidy := by
  unfold ofLetter
  split
  · exact h
  · split
    · exact h
    · split
      · exact h
      · split
        · exact ⟨value, h, rfl⟩
        · exact h

theorem tidy_of_read? {t : Text} {line : Line} (ht : t.Tidy) (h : read? t = some line) : line.Tidy := by
  unfold read? at h
  split at h
  · rename_i letter value
    split at h
    · rw [← Option.some.inj h]
      have hvalue : Text.Tidy ([letter] ++ '=' :: value) := ht
      exact tidy_ofLetter (Text.Tidy.of_append_cons rfl hvalue) letter
    · cases h
  · cases h

/-- Every line that is read is tidy. -/
theorem tidy_of_mem_readAll {text : Text} {line : Line} (h : line ∈ readAll text) : line.Tidy := by
  obtain ⟨piece, hp, hr⟩ := List.mem_filterMap.1 h
  exact tidy_of_read? (Text.tidy_trim (Text.notMem_of_mem_splitOn hp)) hr

end Line

namespace Attribute

/-- The attribute as it is read from the line that writes it. -/
def reread (a : Attribute) : Attribute := if a.value = [] then ⟨Text.trimEnd a.name, []⟩ else a

theorem reread_value (a : Attribute) : a.reread.value = a.value := by
  unfold reread
  split
  · rename_i h
    exact h.symm
  · rfl

theorem reread_of_value_ne_nil {a : Attribute} (h : a.value ≠ []) : a.reread = a := if_neg h

/-- An attribute with a tidy name is read back as it is. -/
theorem reread_of_trimEnd_name {a : Attribute} (h : Text.trimEnd a.name = a.name) : a.reread = a := by
  unfold reread
  split
  · rename_i hv
    rw [h, ← hv]
  · rfl

/-- What a value says when it has no colon, or begins with one: it is a name as a whole. -/
theorem ofValue_eq_name {value : Text} (h : ∀ c name rest, Text.cut? ':' value ≠ some (c :: name, rest)) :
    ofValue value = ⟨value, []⟩ := by
  unfold ofValue
  split
  · rename_i c name rest heq
    exact absurd heq (h c name rest)
  · rfl

/-- What a value says when it has a colon after a name. -/
theorem ofValue_append_cons {c : Char} {name : Text} (h : ':' ∉ c :: name) (rest : Text) :
    ofValue (c :: name ++ ':' :: rest) = ⟨c :: name, rest⟩ := by
  rw [ofValue, Text.cut?_append_cons h]

/-- The line of an attribute that was read holds no line feed, and it is read back. -/
theorem read?_trim_write {value : Text} (hv : value.Tidy) :
    '\n' ∉ (ofValue value).write ∧
      Line.read? (Text.trim (ofValue value).write) = some (.attribute (ofValue value).reread) := by
  have hline : ∀ v : Text, Line.read? (Text.trim ("a=".toList ++ v)) = some (.attribute (ofValue (Text.trimEnd v))) :=
    fun v => Line.read?_trim_cons 'a' rfl (by decide) v
  have hfeed : ∀ v : Text, '\n' ∉ v → '\n' ∉ "a=".toList ++ v := fun _ hn => List.not_mem_append (by decide) hn
  by_cases hex : ∃ c name rest, Text.cut? ':' value = some (c :: name, rest)
  · obtain ⟨c, name, rest, hcut⟩ := hex
    obtain ⟨hn, rfl⟩ := Text.eq_of_cut? hcut
    rw [ofValue_append_cons hn]
    by_cases hr : rest = []
    · subst hr
      -- The name stands at the end of its line, so the blanks at its own end go.
      have hnone : ∀ d m r, Text.cut? ':' (Text.trimEnd (c :: name)) ≠ some (d :: m, r) := by
        intro d m r h
        rw [Text.cut?_eq_none_iff.2 fun hm => hn (Text.mem_of_mem_trimEnd hm)] at h
        cases h
      simp only [write, reread, if_true]
      exact ⟨hfeed _ fun hm => hv.1 (List.mem_append_left _ hm), by rw [hline, ofValue_eq_name hnone]⟩
    · have hw : (Attribute.mk (c :: name) rest).write = "a=".toList ++ (c :: name ++ ':' :: rest) := by
        rw [write, if_neg hr, List.append_assoc]
      rw [hw, reread_of_value_ne_nil hr, hline, hv.2, ofValue_append_cons hn]
      exact ⟨hfeed _ hv.1, rfl⟩
  · have hname : ofValue value = ⟨value, []⟩ := ofValue_eq_name fun c name rest h => hex ⟨c, name, rest, h⟩
    have hw : (ofValue value).write = "a=".toList ++ value := by rw [hname]; rfl
    rw [hw, hline, hv.2, reread_of_trimEnd_name (by rw [hname]; exact hv.2)]
    exact ⟨hfeed _ hv.1, rfl⟩

end Attribute

/-! ## Blocks -/

namespace Line

/-- Whether the line begins the block of a medium. -/
def isMedia : Line → Bool
  | .media _ => true
  | _ => false

theorem eq_media_of_isMedia {line : Line} (h : line.isMedia = true) : ∃ value, line = .media value := by
  unfold isMedia at h
  split at h
  · rename_i value
    exact ⟨value, rfl⟩
  · cases h

/-- The lines before the first `m` line, then the value of each `m` line with the lines up to the next one. -/
def sections : List Line → List Line × List (Text × List Line)
  | [] => ([], [])
  | .media value :: rest => ([], (value, (sections rest).1) :: (sections rest).2)
  | line :: rest => (line :: (sections rest).1, (sections rest).2)

/-- Any other line belongs to what it stands before. -/
theorem sections_cons_of_not_isMedia {line : Line} (h : line.isMedia = false) (rest : List Line) :
    sections (line :: rest) = (line :: (sections rest).1, (sections rest).2) := by
  cases line with
  | media value => cases h
  | _ => rfl

/-- An `m` line cuts the blocks: those before it are the blocks of the lines before it. -/
theorem sections_append_media (before : List Line) (value : Text) (after : List Line) :
    sections (before ++ .media value :: after) =
      ((sections before).1, (sections before).2 ++ (value, (sections after).1) :: (sections after).2) := by
  induction before with
  | nil => rfl
  | cons line before ih =>
    rw [List.cons_append]
    cases hm : line.isMedia with
    | true =>
      obtain ⟨v, rfl⟩ := eq_media_of_isMedia hm
      simp only [sections, ih, List.cons_append]
    | false => rw [sections_cons_of_not_isMedia hm, sections_cons_of_not_isMedia hm, ih]

/-- Lines without an `m` line belong to what they stand before. -/
theorem sections_append_of_forall {own : List Line} (h : ∀ line ∈ own, line.isMedia = false) (rest : List Line) :
    sections (own ++ rest) = (own ++ (sections rest).1, (sections rest).2) := by
  induction own with
  | nil => rfl
  | cons line own ih =>
    rw [List.cons_append, sections_cons_of_not_isMedia (h line List.mem_cons_self),
      ih fun l hl => h l (List.mem_cons_of_mem _ hl)]
    rfl

/-- Lines without an `m` line make up no block. -/
theorem sections_of_forall {lines : List Line} (h : ∀ line ∈ lines, line.isMedia = false) :
    sections lines = (lines, []) := by
  have happend := sections_append_of_forall h []
  rwa [List.append_nil, sections, List.append_nil] at happend

end Line

end MediaSession
