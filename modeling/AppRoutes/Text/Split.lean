/-
Cutting a text at a separator.

`split` cuts at every separator and `join` puts the separators back, so a text is the join
of its parts; `cut?` cuts at the first separator only.
-/
namespace AppRoutes.Text

/-- The parts of a text between the separators; a text without separator is one part. -/
def split (separator : Char) : List Char → List (List Char)
  | [] => [[]]
  | c :: rest =>
    if c = separator then [] :: split separator rest
    else
      match split separator rest with
      | [] => [[c]]
      | first :: others => (c :: first) :: others

/-- The parts in one text, with a separator between neighbours. -/
def join (separator : Char) : List (List Char) → List Char
  | [] => []
  | [part] => part
  | part :: rest => part ++ separator :: join separator rest

/-- What stands before and after the first separator. -/
def cut? (separator : Char) : List Char → Option (List Char × List Char)
  | [] => none
  | c :: rest =>
    if c = separator then some ([], rest)
    else (cut? separator rest).map (fun (before, after) => (c :: before, after))

/-! ## Cutting at every separator

`split` and `join` come to the `splitOn` and `intercalate` of lists, and their laws from there. -/

theorem split_eq_splitOn (separator : Char) (text : List Char) :
    split separator text = text.splitOn separator := by
  induction text with
  | nil => rfl
  | cons c rest ih =>
    rw [split, List.splitOn_cons_eq_if_modifyHead, ih]
    by_cases hc : c = separator
    · simp [hc]
    · simp only [hc, if_false, beq_iff_eq]
      cases hrest : rest.splitOn separator with
      | nil => exact absurd hrest (List.splitOn_ne_nil separator rest)
      | cons first others => rfl

theorem join_eq_intercalate (separator : Char) (parts : List (List Char)) :
    join separator parts = [separator].intercalate parts := by
  induction parts with
  | nil => rfl
  | cons part rest ih =>
    cases rest with
    | nil => exact List.intercalate_singleton.symm
    | cons next rest =>
      show part ++ separator :: join separator (next :: rest) = _
      rw [ih, List.intercalate_cons_cons, List.append_assoc, List.singleton_append]

theorem split_ne_nil (separator : Char) (text : List Char) : split separator text ≠ [] := by
  rw [split_eq_splitOn]
  exact List.splitOn_ne_nil separator text

theorem join_split (separator : Char) (text : List Char) :
    join separator (split separator text) = text := by
  rw [join_eq_intercalate, split_eq_splitOn, List.intercalate_splitOn]

/-- Parts without a separator come back from their join, if there is a part at all. -/
theorem split_join {separator : Char} {parts : List (List Char)} (hne : parts ≠ [])
    (hparts : ∀ part ∈ parts, separator ∉ part) :
    split separator (join separator parts) = parts := by
  rw [join_eq_intercalate, split_eq_splitOn, List.splitOn_intercalate separator hparts hne]

theorem separator_not_mem_of_mem_split {separator : Char} {text part : List Char}
    (h : part ∈ split separator text) : separator ∉ part := by
  induction text generalizing part with
  | nil =>
    rw [split, List.mem_singleton] at h
    simp [h]
  | cons c rest ih =>
    rw [split] at h
    split at h
    · rcases List.mem_cons.mp h with rfl | h
      · simp
      · exact ih h
    · rename_i hc
      split at h
      · rename_i hs
        exact absurd hs (split_ne_nil separator rest)
      · rename_i first others hs
        rcases List.mem_cons.mp h with rfl | h
        · have := ih (hs ▸ List.mem_cons_self)
          simp [this, Ne.symm hc]
        · exact ih (hs ▸ List.mem_cons_of_mem _ h)

theorem split_of_not_mem {separator : Char} {part : List Char} (h : separator ∉ part) :
    split separator part = [part] := by
  rw [split_eq_splitOn, List.splitOn_eq_singleton h]

theorem split_append_cons {separator : Char} {part : List Char} (h : separator ∉ part)
    (text : List Char) :
    split separator (part ++ separator :: text) = part :: split separator text := by
  rw [split_eq_splitOn, split_eq_splitOn, List.splitOn_append_cons_self_of_not_mem h]

/-- A separator between two texts is one cut more. -/
theorem split_append_separator (separator : Char) (before after : List Char) :
    split separator (before ++ separator :: after) =
      split separator before ++ split separator after := by
  simp only [split_eq_splitOn, List.splitOn_append_cons_self]

/-- A text with a separator has more than one part. -/
theorem split_of_mem {separator : Char} {text : List Char} (h : separator ∈ text) :
    ∃ first second others, split separator text = first :: second :: others := by
  obtain ⟨before, after, htext⟩ := List.append_of_mem h
  rw [htext, split_append_separator]
  cases hbefore : split separator before with
  | nil => exact absurd hbefore (split_ne_nil separator before)
  | cons first middle =>
    cases hafter : split separator after with
    | nil => exact absurd hafter (split_ne_nil separator after)
    | cons second others =>
      cases middle with
      | nil => exact ⟨first, second, others, rfl⟩
      | cons next middle => exact ⟨first, next, middle ++ second :: others, rfl⟩

/-- Parts that are each written after a separator come back from the text. -/
theorem split_append_flatMap {separator : Char} {part : List Char} {parts : List (List Char)}
    (hpart : separator ∉ part) (hparts : ∀ other ∈ parts, separator ∉ other) :
    split separator (part ++ parts.flatMap (separator :: ·)) = part :: parts := by
  induction parts generalizing part with
  | nil => rw [List.flatMap_nil, List.append_nil, split_of_not_mem hpart]
  | cons other parts ih =>
    obtain ⟨hother, hparts⟩ := List.forall_mem_cons.mp hparts
    rw [List.flatMap_cons, List.cons_append, split_append_cons hpart, ih hother hparts]

theorem cut?_append_cons {separator : Char} {before : List Char} (h : separator ∉ before)
    (after : List Char) : cut? separator (before ++ separator :: after) = some (before, after) := by
  induction before with
  | nil => rw [List.nil_append, cut?, if_pos rfl]
  | cons c rest ih =>
    rw [List.cons_append, cut?, if_neg (List.ne_of_not_mem_cons h).symm,
      ih (List.not_mem_of_not_mem_cons h)]
    rfl

theorem cut?_eq_some {separator : Char} {text before after : List Char}
    (h : cut? separator text = some (before, after)) :
    text = before ++ separator :: after ∧ separator ∉ before := by
  induction text generalizing before with
  | nil => simp [cut?] at h
  | cons c rest ih =>
    rw [cut?] at h
    split at h
    · rename_i hc
      simp only [Option.some.injEq, Prod.mk.injEq] at h
      simp [← h.1, ← h.2, hc]
    · rename_i hc
      obtain ⟨⟨front, back⟩, hfront, heq⟩ := Option.map_eq_some_iff.mp h
      simp only [Prod.mk.injEq] at heq
      obtain ⟨rfl, rfl⟩ := heq
      obtain ⟨hrest, hmem⟩ := ih hfront
      simp [hrest, hmem, Ne.symm hc]

theorem cut?_eq_none_iff {separator : Char} {text : List Char} :
    cut? separator text = none ↔ separator ∉ text := by
  induction text with
  | nil => simp [cut?]
  | cons c rest ih =>
    rw [cut?]
    by_cases hc : c = separator
    · simp [hc]
    · simp [hc, Ne.symm hc, ih]

end AppRoutes.Text
