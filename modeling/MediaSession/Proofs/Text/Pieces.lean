import MediaSession.Text.Numeral
import Mathlib.Data.List.DropRight

/-!
# Trimmed texts and the pieces of a text

What is left of a text when the blanks at its ends are gone, and what the pieces of a text at a mark are. A text is cut at
its first line feed only when there is one, and a text that is made of lines is taken apart into them again.
-/

namespace MediaSession.Text

/-! ## Blanks and digits -/

/-- A blank is not a digit. -/
theorem isDigit_eq_false_of_isBlank {c : Char} (h : isBlank c = true) : c.isDigit = false := by
  rw [← Bool.not_eq_true]
  intro hd
  obtain ⟨hlow, hhigh⟩ := Char.isDigit_iff_toNat.1 hd
  have h0 : '0'.toNat = 48 := rfl
  have h9 : '9'.toNat = 57 := rfl
  simp only [isBlank, Bool.or_eq_true, Bool.and_eq_true, decide_eq_true_eq, beq_iff_eq] at h
  omega

/-- A digit is not a blank. -/
theorem isBlank_eq_false_of_isDigit {c : Char} (h : c.isDigit = true) : isBlank c = false := by
  rw [← Bool.not_eq_true]
  intro hb
  rw [isDigit_eq_false_of_isBlank hb] at h
  cases h

/-- A digit has no case. -/
theorem toLower_eq_of_isDigit {c : Char} (h : c.isDigit = true) : c.toLower = c := by
  refine dif_neg fun hupper => ?_
  obtain ⟨-, hhigh⟩ := Char.isDigit_iff_toNat.1 h
  have hlow : 'A'.toNat ≤ c.toNat := UInt32.le_iff_toNat_le.1 hupper.1
  have h9 : '9'.toNat = 57 := rfl
  have hA : 'A'.toNat = 65 := rfl
  omega

/-- A blank has no case. -/
theorem toLower_eq_of_isBlank {c : Char} (h : isBlank c = true) : c.toLower = c := by
  refine dif_neg fun hupper => ?_
  have hlow : 'A'.toNat ≤ c.toNat := UInt32.le_iff_toNat_le.1 hupper.1
  have hhigh : c.toNat ≤ 'Z'.toNat := UInt32.le_iff_toNat_le.1 hupper.2
  have hA : 'A'.toNat = 65 := rfl
  have hZ : 'Z'.toNat = 90 := rfl
  simp only [isBlank, Bool.or_eq_true, Bool.and_eq_true, decide_eq_true_eq, beq_iff_eq] at h
  omega

/-- A numeral has no blank. -/
theorem isBlank_eq_false_of_mem_ofNat {n : Nat} {c : Char} (h : c ∈ ofNat n) : isBlank c = false :=
  isBlank_eq_false_of_isDigit (isDigit_of_mem_ofNat h)

/-- Whether a text has no blank can be seen by going through it. -/
theorem isBlank_eq_false_of_all {t : Text} (h : (t.all fun c => !isBlank c) = true) : ∀ c ∈ t, isBlank c = false := by
  intro c hc
  simpa using List.all_eq_true.1 h c hc

/-! ## Blanks at the end -/

theorem trimEnd_eq_rdropWhile (t : Text) : trimEnd t = t.rdropWhile isBlank := rfl

/-- A blank at the end does not count. -/
theorem trimEnd_concat_blank {t : Text} {c : Char} (hc : isBlank c = true) : trimEnd (t ++ [c]) = trimEnd t :=
  List.rdropWhile_concat_pos _ _ _ hc

/-- A text that ends in a character that is not blank is left as it is. -/
theorem trimEnd_concat {t : Text} {c : Char} (hc : isBlank c = false) : trimEnd (t ++ [c]) = t ++ [c] :=
  List.rdropWhile_concat_neg _ _ _ (by simp [hc])

/-- What comes before a character that is not blank stays. -/
theorem trimEnd_append_cons {c : Char} (hc : isBlank c = false) (before after : Text) :
    trimEnd (before ++ c :: after) = before ++ c :: trimEnd after := by
  induction after using List.reverseRecOn with
  | nil => exact trimEnd_concat hc
  | append_singleton after d ih =>
    have heq : before ++ c :: (after ++ [d]) = (before ++ c :: after) ++ [d] := by simp
    rw [heq]
    cases hd : isBlank d with
    | true => rw [trimEnd_concat_blank hd, trimEnd_concat_blank hd, ih]
    | false => rw [trimEnd_concat hd, trimEnd_concat hd, ← heq]

/-- A trimmed text stays as it is. -/
@[simp] theorem trimEnd_trimEnd (t : Text) : trimEnd (trimEnd t) = trimEnd t := List.rdropWhile_idempotent _ _

/-- A text without a blank at its end stays without one when something stands before it. -/
theorem trimEnd_append {before after : Text} (ha : after ≠ []) (h : trimEnd after = after) :
    trimEnd (before ++ after) = before ++ after := by
  rcases List.eq_nil_or_concat after with rfl | ⟨after, c, rfl⟩
  · exact absurd rfl ha
  · simp only [List.concat_eq_append] at h ⊢
    cases hc : isBlank c with
    | true =>
      rw [trimEnd_concat_blank hc] at h
      have hle := (List.rdropWhile_prefix isBlank after).length_le
      rw [← trimEnd_eq_rdropWhile, h, List.length_append, List.length_singleton] at hle
      omega
    | false => rw [← List.append_assoc, trimEnd_concat hc]

/-- A text without blanks is left as it is. -/
theorem trimEnd_of_forall {t : Text} (h : ∀ c ∈ t, isBlank c = false) : trimEnd t = t :=
  List.rdropWhile_eq_self_iff.2 fun hne => by simp [h _ (List.getLast_mem hne)]

/-- Nothing new stands in a text without its last blanks. -/
theorem mem_of_mem_trimEnd {t : Text} {c : Char} (h : c ∈ trimEnd t) : c ∈ t :=
  (List.rdropWhile_prefix isBlank t).subset h

theorem mem_of_mem_trim {t : Text} {c : Char} (h : c ∈ trim t) : c ∈ t :=
  (List.dropWhile_suffix isBlank).subset (mem_of_mem_trimEnd h)

/-- A trimmed text has no blank at its end. -/
@[simp] theorem trimEnd_trim (t : Text) : trimEnd (trim t) = trim t := trimEnd_trimEnd _

/-- A text that begins with a character that is not blank has blanks to lose at its end only. -/
theorem trim_cons {c : Char} (hc : isBlank c = false) (t : Text) : trim (c :: t) = c :: trimEnd t := by
  rw [trim, trimStart, List.dropWhile_cons_of_neg (by simp [hc])]
  exact trimEnd_append_cons hc [] t

/-- A blank at the end of a text is trimmed. -/
theorem trim_concat_blank {t : Text} {c : Char} (hc : isBlank c = true) : trim (t ++ [c]) = trim t := by
  rw [trim, trimStart, List.dropWhile_append]
  split
  · rename_i hempty
    rw [trim, trimStart, List.isEmpty_iff.1 hempty, List.dropWhile_cons_of_pos hc]
    rfl
  · exact trimEnd_concat_blank hc

/-- A text that begins with a word has no blanks to lose at its beginning. -/
theorem trimStart_append {word : Text} (hne : word ≠ []) (hw : ∀ c ∈ word, isBlank c = false) (rest : Text) :
    trimStart (word ++ rest) = word ++ rest := by
  obtain ⟨c, t, rfl⟩ := List.exists_cons_of_ne_nil hne
  rw [trimStart, List.cons_append, List.dropWhile_cons_of_neg (by simp [hw c List.mem_cons_self])]

/-- A word is trimmed already. -/
theorem trim_of_forall {t : Text} (h : ∀ c ∈ t, isBlank c = false) : trim t = t := by
  rcases List.eq_nil_or_concat t with rfl | ⟨_, _, rfl⟩
  · rfl
  · have hstart := trimStart_append (by simp) h []
    rw [List.append_nil] at hstart
    rw [trim, hstart, trimEnd_of_forall h]

/-- Blanks before a text are trimmed. -/
theorem trim_blanks_append {blanks : Text} (h : ∀ c ∈ blanks, isBlank c = true) (t : Text) : trim (blanks ++ t) = trim t := by
  rw [trim, trimStart, List.dropWhile_append_of_pos h]
  rfl

/-- Blanks after a text are trimmed. -/
theorem trim_append_blanks {blanks : Text} (h : ∀ c ∈ blanks, isBlank c = true) (t : Text) : trim (t ++ blanks) = trim t := by
  induction blanks using List.reverseRecOn with
  | nil => rw [List.append_nil]
  | append_singleton blanks c ih =>
    rw [← List.append_assoc, trim_concat_blank (h c (by simp)), ih fun d hd => h d (List.mem_append_left _ hd)]

/-- A text is its last blanks after the rest. -/
theorem exists_trimEnd_append (t : Text) : ∃ blanks, (∀ c ∈ blanks, isBlank c = true) ∧ t = trimEnd t ++ blanks := by
  refine ⟨t.rtakeWhile isBlank, fun c hc => List.mem_rtakeWhile_imp hc, ?_⟩
  rw [trimEnd_eq_rdropWhile, List.rdropWhile_append_rtakeWhile]

/-- A text is its first and its last blanks around the rest. -/
theorem exists_blanks_around (t : Text) : ∃ before after, (∀ c ∈ before, isBlank c = true) ∧ (∀ c ∈ after, isBlank c = true) ∧
    t = before ++ trim t ++ after := by
  obtain ⟨after, hblank, hafter⟩ := exists_trimEnd_append (trimStart t)
  refine ⟨t.takeWhile isBlank, after, fun c hc => List.mem_takeWhile_imp hc, hblank, ?_⟩
  rw [List.append_assoc, trim, ← hafter, trimStart, List.takeWhile_append_dropWhile]

/-- Without the blanks at its end, a text is trimmed as before. -/
theorem trim_trimEnd (t : Text) : trim (trimEnd t) = trim t := by
  obtain ⟨blanks, hblanks, ht⟩ := exists_trimEnd_append t
  conv_rhs => rw [ht, trim_append_blanks hblanks]

theorem trim_trimStart (t : Text) : trim (trimStart t) = trim t := by
  rw [trim, trim, trimStart, trimStart, List.dropWhile_idempotent]

/-- Blanks around a text without any are what is trimmed. -/
theorem trim_blanks_around {before t after : Text} (hbefore : ∀ c ∈ before, isBlank c = true)
    (hafter : ∀ c ∈ after, isBlank c = true) (h : ∀ c ∈ t, isBlank c = false) : trim (before ++ t ++ after) = t := by
  rw [trim_append_blanks hafter, trim_blanks_append hbefore, trim_of_forall h]

/-! ## Pieces of a text -/

/-- No piece of a text holds the mark. -/
theorem notMem_of_mem_splitOn {t piece : Text} {mark : Char} (h : piece ∈ t.splitOn mark) : mark ∉ piece := by
  induction t generalizing piece with
  | nil =>
    rw [List.splitOn_nil, List.mem_singleton] at h
    rw [h]
    exact List.not_mem_nil
  | cons c t ih =>
    rw [List.splitOn_cons_eq_if_modifyHead] at h
    split at h
    · rcases List.mem_cons.1 h with rfl | h
      · exact List.not_mem_nil
      · exact ih h
    · rename_i hc
      cases hs : t.splitOn mark with
      | nil => exact absurd hs (List.splitOn_ne_nil mark t)
      | cons first rest =>
        rw [hs, List.modifyHead_cons] at h
        rcases List.mem_cons.1 h with rfl | h
        · intro hm
          rcases List.mem_cons.1 hm with rfl | hm
          · exact hc BEq.rfl
          · exact ih (hs ▸ List.mem_cons_self) hm
        · exact ih (hs ▸ List.mem_cons_of_mem _ h)

/-- A text without the mark is its only piece. -/
theorem splitOn_of_notMem {t : Text} {mark : Char} (h : mark ∉ t) : t.splitOn mark = [t] := by
  have hpieces : ∀ piece ∈ [t], mark ∉ piece := by simpa using h
  simpa using List.splitOn_intercalate mark hpieces (List.cons_ne_nil _ _)

/-- The first piece of a text is what comes before the first mark. -/
theorem exists_splitOn_eq_cons (mark : Char) (t : Text) : ∃ rest, t.splitOn mark = t.takeWhile (· != mark) :: rest := by
  induction t with
  | nil => exact ⟨[], rfl⟩
  | cons c t ih =>
    obtain ⟨rest, hrest⟩ := ih
    rw [List.splitOn_cons_eq_if_modifyHead]
    split
    · rename_i hc
      exact ⟨t.splitOn mark, by simp [beq_iff_eq.1 hc]⟩
    · rename_i hc
      refine ⟨rest, ?_⟩
      rw [hrest, List.modifyHead_cons, List.takeWhile_cons_of_pos (by simpa [bne] using hc)]

/-- A text made of lines falls into these lines, with a carriage return after each, and an empty rest. -/
theorem splitOn_ofLines {lines : List Text} (h : ∀ line ∈ lines, '\n' ∉ line) :
    (ofLines lines).splitOn '\n' = lines.map (· ++ ['\r']) ++ [[]] := by
  induction lines with
  | nil => rfl
  | cons line rest ih =>
    have hcons : ofLines (line :: rest) = (line ++ ['\r']) ++ '\n' :: ofLines rest := by simp [ofLines]
    have hline : '\n' ∉ line ++ ['\r'] := by simp [h line List.mem_cons_self]
    rw [hcons, List.splitOn_append_cons_self_of_not_mem hline, ih fun l hl => h l (List.mem_cons_of_mem _ hl)]
    rfl

/-- Lines after lines make one text. -/
theorem ofLines_append (before after : List Text) : ofLines (before ++ after) = ofLines before ++ ofLines after :=
  List.flatMap_append

/-- What stands in pieces that are put together is the mark between them or stands in a piece. -/
theorem eq_or_exists_of_mem_intercalate {mark c : Char} {pieces : List Text} (h : c ∈ [mark].intercalate pieces) :
    c = mark ∨ ∃ piece ∈ pieces, c ∈ piece := by
  induction pieces with
  | nil => simp at h
  | cons piece rest ih =>
    cases rest with
    | nil => exact Or.inr ⟨piece, List.mem_cons_self, by simpa using h⟩
    | cons next rest =>
      rw [List.intercalate_cons_cons, List.mem_append, List.mem_append, List.mem_singleton] at h
      rcases h with (h | h) | h
      · exact Or.inr ⟨piece, List.mem_cons_self, h⟩
      · exact Or.inl h
      · rcases ih h with hmark | ⟨p, hp, hc⟩
        · exact Or.inl hmark
        · exact Or.inr ⟨p, List.mem_cons_of_mem _ hp, hc⟩

/-! ## Cuts and words -/

/-- The first character that satisfies the condition is where a text is cut. -/
theorem cutWhere?_append_cons {p : Char → Bool} {before : Text} {mark : Char} (h : ∀ c ∈ before, p c = false)
    (hm : p mark = true) (after : Text) : cutWhere? p (before ++ mark :: after) = some (before, after) := by
  induction before with
  | nil => simp [cutWhere?, hm]
  | cons c before ih =>
    have hih := ih fun d hd => h d (List.mem_cons_of_mem _ hd)
    simp [cutWhere?, h c List.mem_cons_self, hih]

/-- The first mark is where a text is cut. -/
theorem cut?_append_cons {mark : Char} {before : Text} (h : mark ∉ before) (after : Text) :
    cut? mark (before ++ mark :: after) = some (before, after) := by
  refine cutWhere?_append_cons (fun c hc => ?_) (by simp) after
  rw [beq_eq_false_iff_ne]
  rintro rfl
  exact h hc

/-- A text without the mark is not cut. -/
theorem cut?_eq_none_iff {mark : Char} {t : Text} : cut? mark t = none ↔ mark ∉ t := by
  rw [cut?, cutWhere?_eq_none_iff]
  constructor
  · intro h hm
    exact absurd (h mark hm) (by simp)
  · intro h c hc
    rw [beq_eq_false_iff_ne]
    rintro rfl
    exact h hc

/-- What is cut was there, with the first mark between. -/
theorem eq_of_cut? {mark : Char} {t before after : Text} (h : cut? mark t = some (before, after)) :
    mark ∉ before ∧ t = before ++ mark :: after := by
  obtain ⟨hb, m, hm, rfl⟩ := eq_of_cutWhere? h
  obtain rfl : m = mark := by simpa using hm
  exact ⟨fun hmem => absurd (hb _ hmem) (by simp), rfl⟩

/-- A text that is trimmed can be cut at the same mark, and each side loses the blanks at the end of the text. -/
theorem cut?_trim {mark : Char} (hmark : isBlank mark = false) {before : Text} (h : mark ∉ before) (after : Text) :
    cut? mark (trim (before ++ mark :: after)) = some (trimStart before, trimEnd after) := by
  have hstart : trimStart (before ++ mark :: after) = trimStart before ++ mark :: after := by
    rw [trimStart, List.dropWhile_append]
    split
    · rename_i hempty
      rw [trimStart, List.isEmpty_iff.1 hempty, List.dropWhile_cons_of_neg (by simp [hmark])]
      rfl
    · rfl
  rw [trim, hstart, trimEnd_append_cons hmark]
  exact cut?_append_cons (fun hm => h ((List.dropWhile_sublist _).subset hm)) _

/-- A word comes before the words after the blank that ends it. -/
theorem words_append_cons {word : Text} {blank : Char} (hne : word ≠ []) (hw : ∀ c ∈ word, isBlank c = false)
    (hb : isBlank blank = true) (rest : Text) : words (word ++ blank :: rest) = word :: words rest := by
  rw [words, List.splitOnP_append_cons_of_forall_mem hw blank hb, List.filter_cons_of_pos (by simpa using hne)]
  rfl

/-- A single word is all its words. -/
theorem words_of_forall {word : Text} (hne : word ≠ []) (hw : ∀ c ∈ word, isBlank c = false) : words word = [word] := by
  rw [words, List.splitOnP_eq_singleton hw, List.filter_cons_of_pos (by simpa using hne)]
  rfl

end MediaSession.Text
