import AccountLedger.Access
/-!
# What tags a text has

A text is cut at its commas, and what stays of a piece without the blanks around it is a tag, unless
nothing stays.  Both are said here without cutting: where a piece stands in the text, and where a tag
stands in its piece.  A text is read if it has no other tags than the two that mean something, and
then only which of them it has matters.

* `trim_eq_iff`: a tag is what stands between the blanks at both ends;
* `mem_splitOn_iff`: the pieces are what stands between two commas;
* `mem_tags_iff`, `parse_eq_ok_iff`: the tags of a text, and the access that is read from it;
* `parse_exact`: what is read, and that it is read back if it is written with tags.
-/

namespace AccountLedger

/-! ## blanks at the ends -/

namespace Text

variable {cs core front rest : List Char}

/-- The core stands in the text between blanks, and does not begin or end with one. -/
structure Trimmed (cs core : List Char) : Prop where
  around : ∃ front back, cs = front ++ core ++ back ∧ (∀ c ∈ front, isBlank c = true) ∧
    ∀ c ∈ back, isBlank c = true
  head : ∀ c, core.head? = some c → isBlank c = false
  last : ∀ c, core.getLast? = some c → isBlank c = false

theorem dropWhile_isBlank (blank : ∀ c ∈ front, isBlank c = true)
    (head : ∀ c, rest.head? = some c → isBlank c = false) :
    (front ++ rest).dropWhile isBlank = rest := by
  rw [List.dropWhile_append_of_pos blank]
  cases rest with
  | nil => rfl
  | cons c rest => rw [List.dropWhile_cons, head c rfl, if_neg Bool.false_ne_true]

theorem exists_of_dropWhile_isBlank (h : cs.dropWhile isBlank = rest) :
    (∃ front, cs = front ++ rest ∧ ∀ c ∈ front, isBlank c = true) ∧
      ∀ c, rest.head? = some c → isBlank c = false := by
  have blank : ∀ c ∈ cs.takeWhile isBlank, isBlank c = true := List.all_eq_true.1 List.all_takeWhile
  have head := List.head?_dropWhile_not isBlank cs
  subst h
  refine ⟨⟨_, List.takeWhile_append_dropWhile.symm, blank⟩, fun c hc => ?_⟩
  rwa [hc] at head

theorem trimmed_trim (cs : List Char) : Trimmed cs (trim cs) := by
  obtain ⟨⟨front, hcs, blank⟩, head⟩ := exists_of_dropWhile_isBlank (Eq.refl (cs.dropWhile isBlank))
  obtain ⟨⟨back, hback, blank'⟩, last⟩ :=
    exists_of_dropWhile_isBlank (Eq.refl ((cs.dropWhile isBlank).reverse.dropWhile isBlank))
  have hmiddle : cs.dropWhile isBlank = trim cs ++ back.reverse := by
    rw [trim, ← List.reverse_append, ← hback, List.reverse_reverse]
  refine ⟨⟨front, back.reverse, ?_, blank, fun c hc => blank' c (List.mem_reverse.1 hc)⟩,
    fun c hc => head c ?_, fun c hc => last c ?_⟩
  · rw [List.append_assoc, ← hmiddle]
    exact hcs
  · rw [hmiddle, List.head?_append, hc, Option.some_or]
  · rwa [trim, List.getLast?_reverse] at hc

theorem Trimmed.trim_eq (h : Trimmed cs core) : trim cs = core := by
  obtain ⟨front, back, rfl, blank, blank'⟩ := h.around
  have blankBack : ∀ c ∈ back.reverse, isBlank c = true := fun c hc => blank' c (List.mem_reverse.1 hc)
  cases core with
  | nil =>
    -- all is blank, and it does not matter where the text is cut
    have all : ∀ c ∈ front ++ back, isBlank c = true :=
      fun c hc => (List.mem_append.1 hc).elim (blank c) (blank' c)
    have none : (front ++ back ++ []).dropWhile isBlank = [] :=
      dropWhile_isBlank all fun c hc => nomatch hc
    rw [List.append_nil] at none
    rw [trim, List.append_nil, none]
    rfl
  | cons c rest =>
    have first : (front ++ (c :: rest) ++ back).dropWhile isBlank = c :: rest ++ back := by
      rw [List.append_assoc]
      exact dropWhile_isBlank blank fun d hd => h.head d hd
    rw [trim, first, List.reverse_append, dropWhile_isBlank blankBack, List.reverse_reverse]
    intro d hd
    exact h.last d (List.head?_reverse ▸ hd)

theorem trim_eq_iff : trim cs = core ↔ Trimmed cs core :=
  ⟨fun h => h ▸ trimmed_trim cs, Trimmed.trim_eq⟩

end Text

namespace Access

open Text (Trimmed)

/-! ## pieces between commas -/

variable {cs piece : List Char}

/-- The piece has no comma, and stands between two in the text with one more at each end. -/
structure Piece (cs piece : List Char) : Prop where
  whole : ',' ∉ piece
  between : ∃ before after, ',' :: cs ++ [','] = before ++ ',' :: (piece ++ ',' :: after)

theorem not_mem_of_mem_splitOn (h : piece ∈ cs.splitOn ',') : ',' ∉ piece := by
  induction cs generalizing piece with
  | nil =>
    rw [List.splitOn_nil, List.mem_singleton] at h
    rw [h]
    exact List.not_mem_nil
  | cons c rest ih =>
    rw [List.splitOn_cons_eq_if_modifyHead] at h
    split at h
    · rcases List.mem_cons.1 h with rfl | h
      · exact List.not_mem_nil
      · exact ih h
    · rename_i hc
      cases hsplit : rest.splitOn ',' with
      | nil => exact absurd hsplit (List.splitOn_ne_nil _ _)
      | cons first others =>
        rw [hsplit] at h ih
        rcases List.mem_cons.1 h with rfl | h
        · intro hmem
          rcases List.mem_cons.1 hmem with rfl | hmem
          · exact hc (beq_self_eq_true _)
          · exact ih (List.mem_cons_self ..) hmem
        · exact ih (List.mem_cons_of_mem _ h)

/-- With a comma at each end, the text is cut into the same pieces and two empty ones. -/
theorem splitOn_between (cs : List Char) :
    (',' :: cs ++ [',']).splitOn ',' = [] :: (cs.splitOn ',' ++ [[]]) := by
  rw [List.splitOn_append_cons_self, List.splitOn_nil]
  exact congrArg (· ++ [[]]) (List.splitOn_append_cons_self [] cs)

/-- The pieces with a comma behind each are the text with one more comma. -/
theorem flatten_pieces (cs : List Char) :
    ((cs.splitOn ',').map (· ++ [','])).flatten = cs ++ [','] := by
  induction cs with
  | nil => rfl
  | cons c rest ih =>
    rw [List.splitOn_cons_eq_if_modifyHead]
    split
    · rename_i hc
      rw [List.map_cons, List.flatten_cons, ih, beq_iff_eq.1 hc]
      rfl
    · cases hsplit : rest.splitOn ',' with
      | nil => exact absurd hsplit (List.splitOn_ne_nil _ _)
      | cons first others =>
        rw [hsplit] at ih
        exact congrArg (c :: ·) ih

theorem mem_splitOn_iff : piece ∈ cs.splitOn ',' ↔ Piece cs piece := by
  refine ⟨fun h => ⟨not_mem_of_mem_splitOn h, ?_⟩, ?_⟩
  · obtain ⟨left, right, hsplit⟩ := List.mem_iff_append.1 h
    have hcs := flatten_pieces cs
    rw [hsplit, List.map_append, List.flatten_append, List.map_cons, List.flatten_cons] at hcs
    -- what is before the piece ends with a comma, if it is only the one that was put in front
    obtain ⟨before, hbefore⟩ : ∃ before,
        ',' :: (left.map (· ++ [','])).flatten = before ++ [','] := by
      rcases List.eq_nil_or_concat left with rfl | ⟨init, last, rfl⟩
      · exact ⟨[], rfl⟩
      · exact ⟨',' :: ((init.map (· ++ [','])).flatten ++ last), by simp⟩
    refine ⟨before, (right.map (· ++ [','])).flatten, ?_⟩
    rw [List.cons_append, ← hcs, ← List.cons_append, hbefore]
    simp
  · rintro ⟨whole, before, after, h⟩
    have pieces := congrArg (List.splitOn ',') h
    rw [splitOn_between, List.splitOn_append_cons_self,
      List.splitOn_append_cons_self_of_not_mem whole] at pieces
    -- the first piece and the last one are the empty ones at the ends
    cases hfront : before.splitOn ',' with
    | nil => exact absurd hfront (List.splitOn_ne_nil _ _)
    | cons first front =>
      rw [hfront, List.cons_append, List.cons.injEq] at pieces
      rcases List.eq_nil_or_concat (after.splitOn ',') with hback | ⟨back, last, hback⟩
      · exact absurd hback (List.splitOn_ne_nil _ _)
      · rw [hback, List.concat_eq_append, ← List.cons_append, ← List.append_assoc] at pieces
        rw [(List.append_inj' pieces.2 rfl).1]
        exact List.mem_append_right _ (List.mem_cons_self ..)

/-! ## the tags of a text -/

variable {text : String} {a b : Access}

/-- The text has the tag: with blanks around it, the tag is a piece between commas. -/
def Occurs (text tag : String) : Prop :=
  tag ≠ "" ∧ ∃ piece, Piece text.toList piece ∧ Trimmed piece tag.toList

theorem mem_tags_iff {tag : String} : tag.toList ∈ tags text.toList ↔ Occurs text tag := by
  have hne : tag.toList ≠ [] ↔ tag ≠ "" := not_congr String.toList_eq_nil_iff
  rw [tags, List.mem_filter, List.mem_map, decide_eq_true_eq, hne, and_comm]
  simp only [mem_splitOn_iff, Text.trim_eq_iff, Occurs]

/-- Tags are added if there are none but the two, and what they add is which of them are there. -/
theorem addTags_eq_ok_iff {ts : List (List Char)} :
    addTags a ts = .ok b ↔ (∀ t ∈ ts, t = "mut".toList ∨ t = "signer".toList) ∧
      b = ⟨a.signer || decide ("signer".toList ∈ ts), a.writable || decide ("mut".toList ∈ ts)⟩ := by
  have hne : "signer".toList ≠ "mut".toList := by decide
  induction ts generalizing a with
  | nil =>
    rw [addTags, Except.ok.injEq, eq_comm]
    simp
  | cons t rest ih =>
    rw [addTags, addTag]
    by_cases hmut : t = "mut".toList
    · subst hmut
      rw [if_pos rfl]
      refine ih.trans ?_
      simp only [List.mem_cons, forall_eq_or_imp, hne, true_or, true_and, false_or, decide_true,
        Bool.true_or, Bool.or_true]
    · rw [if_neg hmut]
      by_cases hsigner : t = "signer".toList
      · subst hsigner
        rw [if_pos rfl]
        refine ih.trans ?_
        simp only [List.mem_cons, forall_eq_or_imp, hne.symm, true_or, or_true, true_and, false_or,
          decide_true, Bool.true_or, Bool.or_true]
      · rw [if_neg hsigner]
        refine ⟨fun h => (nomatch h), fun h => ?_⟩
        exact absurd (h.1 t (List.mem_cons_self ..)) (not_or.2 ⟨hmut, hsigner⟩)

theorem forall_tags_iff : (∀ t ∈ tags text.toList, t = "mut".toList ∨ t = "signer".toList) ↔
    ∀ tag, Occurs text tag → tag = "mut" ∨ tag = "signer" := by
  refine ⟨fun h tag occurs => ?_, fun h t ht => ?_⟩
  · exact (h _ (mem_tags_iff.2 occurs)).imp String.toList_inj.1 String.toList_inj.1
  · have occurs : Occurs text (String.ofList t) := mem_tags_iff.1 (by rwa [String.toList_ofList])
    have known := h _ occurs
    rwa [← String.toList_inj, ← String.toList_inj, String.toList_ofList] at known

/-- A text is read if it has no tags but the two, and what is read is which of them it has. -/
theorem parse_eq_ok_iff : parse text = .ok a ↔
    (∀ tag, Occurs text tag → tag = "mut" ∨ tag = "signer") ∧
      (a.writable = true ↔ Occurs text "mut") ∧ (a.signer = true ↔ Occurs text "signer") := by
  have flag : ∀ (x : Bool) (p : Prop) [Decidable p], x = decide p ↔ (x = true ↔ p) := by
    intro x p _
    rw [Bool.eq_iff_iff, decide_eq_true_eq]
  obtain ⟨signer, writable⟩ := a
  rw [parse, addTags_eq_ok_iff, forall_tags_iff, mk.injEq, readonly, Bool.false_or, Bool.false_or, flag,
    flag, mem_tags_iff, mem_tags_iff]
  exact and_congr_right fun _ => and_comm

/-! ## access and its tags -/

theorem parse_text (h : a ≠ readonly) : parse a.text = .ok a := by
  obtain ⟨signer, writable⟩ := a
  cases signer <;> cases writable
  · exact absurd rfl h
  · rfl
  · rfl
  · rfl

/-- The name of reading alone is no tag. -/
theorem parse_text_readonly : parse readonly.text = .error ⟨"readonly"⟩ := rfl

/-- A text is read exactly if each of its tags is one of the two, and then it is writing that is asked
for if the one occurs and signing if the other does.  An access that asks for something is written
with tags and read back as it is; the name of one that asks for nothing is not read. -/
theorem parse_exact (text : String) :
    ((∃ a, parse text = .ok a) ↔ ∀ tag, Occurs text tag → tag = "mut" ∨ tag = "signer") ∧
      ∀ a, parse text = .ok a →
        (a.writable = true ↔ Occurs text "mut") ∧ (a.signer = true ↔ Occurs text "signer") ∧
          parse a.text = if a = readonly then .error ⟨"readonly"⟩ else .ok a := by
  refine ⟨⟨fun ⟨a, h⟩ => (parse_eq_ok_iff.1 h).1, fun known => ?_⟩, fun a h => ?_⟩
  · exact ⟨_, addTags_eq_ok_iff.2 ⟨forall_tags_iff.2 known, rfl⟩⟩
  · obtain ⟨_, writable, signer⟩ := parse_eq_ok_iff.1 h
    refine ⟨writable, signer, ?_⟩
    split
    · rename_i hreadonly
      rw [hreadonly]
      exact parse_text_readonly
    · rename_i hne
      exact parse_text hne

/-- both tags, in the other order, with a repetition, blanks and empty pieces -/
def crowded : String := " signer ,, mut,signer\t,"

theorem crowded_exact : parse crowded = .ok writingSigner ∧ Occurs crowded "mut" ∧
    Occurs crowded "signer" ∧ parse writingSigner.text = .ok writingSigner := by
  have read : parse crowded = .ok writingSigner := rfl
  obtain ⟨writable, signer, back⟩ := (parse_exact crowded).2 writingSigner read
  exact ⟨read, writable.1 rfl, signer.1 rfl, back⟩

/-- A text without tags is read, and the name of what it asks for is not. -/
theorem blank_not_read_back : parse "" = .ok readonly ∧ parse readonly.text ≠ .ok readonly := by
  refine ⟨rfl, fun back => ?_⟩
  rw [parse_text_readonly] at back
  cases back

end Access

end AccountLedger
