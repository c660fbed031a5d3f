/-
Files with one key and one value a line.

`SpellsLines` says how such a file may be written: bare keys, any blanks around the parts of a line,
either kind of line end.  Where no key stands twice, the file is read as its keys and values in
order, by `read?_of_spellsLines`.
-/
import AppRoutes.Proofs.Toml.Spelling
import AppRoutes.Toml.File

namespace AppRoutes.Toml

/-- Spaces and tabs alone. -/
def IsBlanks (text : List Char) : Prop := ∀ c ∈ text, isBlank c = true

/-- Letters, digits, underscores and hyphens, one at least. -/
def IsBareKey (key : String) : Prop := key ≠ "" ∧ ∀ c ∈ key.toList, isBareKeyChar c = true

theorem isBareKey_of_all {key : String} (hne : key ≠ "")
    (h : key.toList.all isBareKeyChar = true) : IsBareKey key :=
  ⟨hne, List.all_eq_true.mp h⟩

/-- How a key and its value are written on one line. -/
inductive SpellsMember : String × Value → List Char → Prop
  | intro {key : String} {value : Value} {indent before after trail lexeme : List Char}
      (hkey : IsBareKey key) (hindent : IsBlanks indent) (hbefore : IsBlanks before)
      (hafter : IsBlanks after) (htrail : IsBlanks trail) (h : SpellsValue value lexeme) :
      SpellsMember (key, value)
        (indent ++ (key.toList ++ (before ++ '=' :: (after ++ (lexeme ++ trail)))))

/-- What ends a line that `rest` follows.  The last line may end with the file. -/
inductive EndsLine : List Char → List Char → Prop
  | newline (rest : List Char) : EndsLine ['\n'] rest
  | carriageReturn (rest : List Char) : EndsLine ['\r', '\n'] rest
  | file : EndsLine [] []

/-- How keys and values are written, each on a line of its own. -/
inductive SpellsLines : List (String × Value) → List Char → Prop
  | nil : SpellsLines [] []
  | cons {member : String × Value} {members : List (String × Value)}
      {line ending rest : List Char} (h : SpellsMember member line) (hend : EndsLine ending rest)
      (hrest : SpellsLines members rest) :
      SpellsLines (member :: members) (line ++ (ending ++ rest))

/-- Values that can be written under bare keys can be written line by line. -/
theorem exists_spellsLines {members : List (String × Value)}
    (h : ∀ member ∈ members, IsBareKey member.1 ∧ ∃ lexeme, SpellsValue member.2 lexeme) :
    ∃ text, SpellsLines members text := by
  induction members with
  | nil => exact ⟨[], .nil⟩
  | cons member rest ih =>
    obtain ⟨⟨hkey, lexeme, hvalue⟩, hrest⟩ := List.forall_mem_cons.mp h
    obtain ⟨text, htext⟩ := ih hrest
    have hempty : IsBlanks [] := List.forall_mem_nil _
    exact ⟨_, .cons (.intro hkey hempty hempty hempty hempty hvalue) (.newline text) htext⟩

theorem skipBlanks_append {blanks : List Char} (h : IsBlanks blanks) (rest : List Char) :
    skipBlanks (blanks ++ rest) = skipBlanks rest :=
  List.dropWhile_append_of_pos h

theorem skipBlanks_of_head {c : Char} (h : isBlank c = false) (rest : List Char) :
    skipBlanks (c :: rest) = c :: rest := by
  rw [skipBlanks, List.dropWhile_cons, h]
  rfl

theorem isWordChar_of_isBlank {c : Char} (h : isBlank c = true) :
    isWordChar c = false ∧ c ≠ '"' := by
  simp only [isBlank, Bool.or_eq_true, decide_eq_true_eq] at h
  rcases h with rfl | rfl
  all_goals decide

theorem endsWord_append {blanks rest : List Char} (h : IsBlanks blanks) (hrest : EndsWord rest) :
    EndsWord (blanks ++ rest) := by
  intro c hc
  cases blanks with
  | nil => exact hrest c hc
  | cons blank blanks =>
    rw [List.cons_append, List.head?_cons, Option.mem_some_iff] at hc
    rw [← hc]
    exact isWordChar_of_isBlank (h blank List.mem_cons_self)

theorem endsWord_of_endsLine {ending rest : List Char} (h : EndsLine ending rest) :
    EndsWord (ending ++ rest) := by
  intro c hc
  cases h with
  | newline | carriageReturn =>
    rw [List.cons_append, List.head?_cons, Option.mem_some_iff] at hc
    rw [← hc]
    decide
  | file => cases hc

theorem endOfLine?_append {blanks : List Char} (h : IsBlanks blanks) (rest : List Char) :
    endOfLine? (blanks ++ rest) = endOfLine? rest := by
  rw [endOfLine?, skipBlanks_append h, endOfLine?]

theorem endOfLine?_of_endsLine {trail ending rest : List Char} (htrail : IsBlanks trail)
    (h : EndsLine ending rest) : endOfLine? (trail ++ (ending ++ rest)) = some rest := by
  rw [endOfLine?_append htrail]
  cases h with
  | newline | carriageReturn | file => rfl

theorem ne_of_isBareKeyChar {c d : Char} (h : isBareKeyChar c = true)
    (hd : isBareKeyChar d = false) : c ≠ d := by
  rintro rfl
  rw [h] at hd
  exact absurd hd (by decide)

theorem IsBareKey.exists_cons {key : String} (h : IsBareKey key) :
    ∃ c rest, key.toList = c :: rest ∧ isBareKeyChar c = true := by
  cases htext : key.toList with
  | nil => exact absurd (String.toList_eq_nil_iff.mp htext) h.1
  | cons c rest => exact ⟨c, rest, rfl, h.2 c (htext ▸ List.mem_cons_self)⟩

theorem isBlank_of_isBareKeyChar {c : Char} (h : isBareKeyChar c = true) : isBlank c = false := by
  simp [isBlank, ne_of_isBareKeyChar h (by decide : isBareKeyChar ' ' = false),
    ne_of_isBareKeyChar h (by decide : isBareKeyChar '\t' = false)]

theorem isBareKeyChar_of_isBlank {c : Char} (h : isBlank c = true) : isBareKeyChar c = false := by
  refine Bool.eq_false_iff.mpr fun hkey => ?_
  rw [isBlank_of_isBareKeyChar hkey] at h
  exact absurd h (by decide)

theorem IsBareKey.skipBlanks_append {key : String} (h : IsBareKey key) (rest : List Char) :
    skipBlanks (key.toList ++ rest) = key.toList ++ rest := by
  obtain ⟨c, tail, htext, hc⟩ := h.exists_cons
  rw [htext]
  exact skipBlanks_of_head (isBlank_of_isBareKeyChar hc) _

theorem IsBareKey.append_ne_cons {key : String} (h : IsBareKey key) (rest : List Char) {c : Char}
    (hc : isBareKeyChar c = false) (tail : List Char) : key.toList ++ rest ≠ c :: tail := by
  obtain ⟨first, others, htext, hfirst⟩ := h.exists_cons
  rw [htext]
  exact fun heq => ne_of_isBareKeyChar hfirst hc (List.cons.inj heq).1

/-- A line that begins with a key has not ended yet. -/
theorem IsBareKey.endOfLine?_append {key : String} (h : IsBareKey key) (rest : List Char) :
    endOfLine? (key.toList ++ rest) = none := by
  have hne : ∀ c tail, isBareKeyChar c = false → key.toList ++ rest ≠ c :: tail :=
    fun c tail hc => h.append_ne_cons rest hc tail
  have hcomment : skipComment (key.toList ++ rest) = key.toList ++ rest := by
    unfold skipComment
    split
    · rename_i heq
      exact absurd heq (hne _ _ (by decide))
    · rfl
  have hline : lineEnd? (key.toList ++ rest) = none := by
    unfold lineEnd?
    split
    · rename_i heq
      exact absurd heq (hne _ _ (by decide))
    · rename_i heq
      exact absurd heq (hne _ _ (by decide))
    · rfl
  obtain ⟨c, tail, htext, -⟩ := h.exists_cons
  rw [endOfLine?, h.skipBlanks_append, hcomment]
  rw [htext] at hline ⊢
  exact hline

theorem keyPart?_append {key : String} (h : IsBareKey key) {rest : List Char}
    (hrest : ∀ c ∈ rest.head?, isBareKeyChar c = false) :
    keyPart? (key.toList ++ rest) = some (key, rest) := by
  have hsome : key.toList.isEmpty = false := by
    rw [List.isEmpty_eq_false_iff]
    exact fun hnil => h.1 (String.toList_eq_nil_iff.mp hnil)
  unfold keyPart?
  split
  · rename_i heq
    exact absurd heq (h.append_ne_cons rest (by decide) _)
  · rename_i heq
    exact absurd heq (h.append_ne_cons rest (by decide) _)
  · rw [takeWhile_append h.2 hrest, dropWhile_append h.2 hrest]
    show (if key.toList.isEmpty = true then none else some (String.ofList key.toList, rest)) = _
    rw [hsome, String.ofList_toList]
    rfl

/-- A key without points is one part, up to the equals sign. -/
theorem key?_append {key : String} (hkey : IsBareKey key) {before : List Char}
    (hbefore : IsBlanks before) (rest : List Char) :
    key? (key.toList ++ (before ++ '=' :: rest)) = some ([key], '=' :: rest) := by
  have hhead : ∀ c ∈ (before ++ '=' :: rest).head?, isBareKeyChar c = false := by
    intro c hc
    cases before with
    | nil =>
      rw [List.nil_append, List.head?_cons, Option.mem_some_iff] at hc
      rw [← hc]
      decide
    | cons blank before =>
      rw [List.cons_append, List.head?_cons, Option.mem_some_iff] at hc
      rw [← hc]
      exact isBareKeyChar_of_isBlank (hbefore blank List.mem_cons_self)
  have hequals : skipBlanks (before ++ '=' :: rest) = '=' :: rest := by
    rw [skipBlanks_append hbefore, skipBlanks_of_head (by decide)]
  show keyUpTo? (79 + 1) _ = _
  rw [keyUpTo?, hkey.skipBlanks_append, keyPart?_append hkey hhead]
  simp only [Option.bind_eq_bind, Option.bind_some, hequals]
  rfl

theorem skipBlanks_append_of_spellsValue {value : Value} {lexeme : List Char}
    (h : SpellsValue value lexeme) (rest : List Char) :
    skipBlanks (lexeme ++ rest) = lexeme ++ rest := by
  cases h with
  | text | negative => exact skipBlanks_of_head (by decide) _
  | @natural n =>
    obtain ⟨first, digits, hdigits⟩ := List.exists_cons_of_ne_nil (Text.Numeral.digits_ne_nil n)
    have hfirst : first.isDigit = true :=
      Text.Numeral.isDigit_of_mem_digits (n := n) (hdigits ▸ List.mem_cons_self)
    rw [hdigits]
    refine skipBlanks_of_head ?_ _
    simp [isBlank, ne_of_isDigit hfirst (by decide : ' '.isDigit = false),
      ne_of_isDigit hfirst (by decide : '\t'.isDigit = false)]

theorem statement?_of_key {key : String} {value : Value} {before after lexeme rest : List Char}
    (hkey : IsBareKey key) (hbefore : IsBlanks before) (hafter : IsBlanks after)
    (h : SpellsValue value lexeme) (hrest : EndsWord rest) :
    statement? (key.toList ++ (before ++ '=' :: (after ++ (lexeme ++ rest)))) =
      some (.member [key] value, rest) := by
  have hvalue : value? (skipBlanks (after ++ (lexeme ++ rest))) = some (value, rest) := by
    rw [skipBlanks_append hafter, skipBlanks_append_of_spellsValue h, value?_of_spellsValue h hrest]
  unfold statement?
  split
  · rename_i heq
    exact absurd heq (hkey.append_ne_cons _ (by decide) _)
  · rename_i heq
    exact absurd heq (hkey.append_ne_cons _ (by decide) _)
  · rw [key?_append hkey hbefore]
    show (value? (skipBlanks (after ++ (lexeme ++ rest)))).bind
      (fun found => some (Statement.member [key] found.1, found.2)) = _
    rw [hvalue]
    rfl

/-- The statement that a key and its value are. -/
def Statement.ofMember (member : String × Value) : Statement := .member [member.1] member.2

/-- A line is neither empty nor at its end where it begins, and it is read as one statement. -/
theorem statement?_of_spellsMember {member : String × Value} {line : List Char}
    (h : SpellsMember member line) {ending rest : List Char} (hend : EndsLine ending rest) :
    endOfLine? (line ++ (ending ++ rest)) = none ∧
      ∃ trail, statement? (skipBlanks (line ++ (ending ++ rest))) =
        some (.ofMember member, trail) ∧ endOfLine? trail = some rest := by
  obtain ⟨hkey, hindent, hbefore, hafter, htrail, h⟩ := h
  rename_i key value indent before after trail lexeme
  have hline : indent ++ (key.toList ++ (before ++ '=' :: (after ++ (lexeme ++ trail)))) ++
      (ending ++ rest) = indent ++ (key.toList ++ (before ++ '=' ::
        (after ++ (lexeme ++ (trail ++ (ending ++ rest)))))) := by
    simp only [List.append_assoc, List.cons_append]
  have hrest : EndsWord (trail ++ (ending ++ rest)) :=
    endsWord_append htrail (endsWord_of_endsLine hend)
  rw [hline, endOfLine?_append hindent, hkey.endOfLine?_append, skipBlanks_append hindent,
    hkey.skipBlanks_append]
  exact ⟨rfl, trail ++ (ending ++ rest), statement?_of_key hkey hbefore hafter h hrest,
    endOfLine?_of_endsLine htrail hend⟩

theorem exists_cons_of_spellsMember {member : String × Value} {line : List Char}
    (h : SpellsMember member line) :
    ∃ c rest, line = c :: rest ∧ (isBlank c = true ∨ isBareKeyChar c = true) := by
  obtain ⟨hkey, hindent, -, -, -, -⟩ := h
  rename_i key value indent before after trail lexeme
  cases indent with
  | nil =>
    obtain ⟨c, tail, htext, hc⟩ := hkey.exists_cons
    rw [htext]
    exact ⟨c, _, rfl, Or.inr hc⟩
  | cons blank indent => exact ⟨blank, _, rfl, Or.inl (hindent blank List.mem_cons_self)⟩

theorem eq_nil_of_spellsLines {members : List (String × Value)} (h : SpellsLines members []) :
    members = [] := by
  cases members with
  | nil => rfl
  | cons member members =>
    generalize hempty : ([] : List Char) = text at h
    cases h with
    | cons h _ _ =>
      obtain ⟨c, rest, hline, -⟩ := exists_cons_of_spellsMember h
      rw [hline] at hempty
      cases hempty

/-- The lines are read as the statements of their keys and values. -/
theorem statementsUpTo?_of_spellsLines {members : List (String × Value)} {text : List Char}
    (h : SpellsLines members text) {bound : Nat} (hbound : text.length < bound) :
    statementsUpTo? bound text = some (members.map Statement.ofMember) := by
  induction h generalizing bound with
  | nil =>
    obtain ⟨bound, rfl⟩ := Nat.exists_eq_add_one_of_ne_zero (Nat.ne_zero_of_lt hbound)
    rfl
  | @cons member members line ending rest h hend hrest ih =>
    obtain ⟨bound, rfl⟩ := Nat.exists_eq_add_one_of_ne_zero (Nat.ne_zero_of_lt hbound)
    obtain ⟨hopen, trail, hstatement, hclose⟩ := statement?_of_spellsMember h hend
    obtain ⟨first, tail, hline, -⟩ := exists_cons_of_spellsMember h
    have hlength : 0 < line.length := hline ▸ Nat.succ_pos _
    rw [List.length_append, List.length_append] at hbound
    rw [statementsUpTo?, hopen, hstatement]
    simp only [Option.bind_eq_bind, Option.bind_some, hclose]
    cases rest with
    | nil =>
      rw [eq_nil_of_spellsLines hrest]
      rfl
    | cons c tail =>
      show (statementsUpTo? bound (c :: tail)).bind _ = _
      rw [ih (by omega)]
      rfl

theorem statements?_of_spellsLines {members : List (String × Value)} {text : List Char}
    (h : SpellsLines members text) :
    statements? text = some (members.map Statement.ofMember) :=
  statementsUpTo?_of_spellsLines h (Nat.lt_succ_self _)

/-! ## Files -/

/-- Keys that are new are added in order at the top of the file. -/
theorem foldlM_add_ofMember {members : List (String × Value)} {before : Members}
    (h : (before.map Prod.fst ++ members.map Prod.fst).Nodup) :
    (members.map Statement.ofMember).foldlM Progress.add ⟨before, []⟩ =
      some ⟨before ++ members.map (fun member => (member.1, .value member.2)), []⟩ := by
  induction members generalizing before with
  | nil =>
    rw [List.map_nil, List.map_nil, List.append_nil]
    rfl
  | cons member rest ih =>
    obtain ⟨key, value⟩ := member
    rw [List.map_cons, List.append_cons] at h
    have hnew : before.get? key = none := by
      refine List.lookup_eq_none_iff.mpr fun other hother => ?_
      have hne : key ≠ other.1 := by
        rintro rfl
        have hmem : other.1 ∈ before.map Prod.fst := List.mem_map_of_mem hother
        exact (List.nodup_append.mp (List.nodup_append.mp h).1).2.2 _ hmem _
          List.mem_cons_self rfl
      simpa using hne
    have hadd : Progress.add ⟨before, []⟩ (.ofMember (key, value)) =
        some ⟨before ++ [(key, .value value)], []⟩ := by
      show (before.addValue [key] value).bind _ = _
      rw [Members.addValue, hnew]
      rfl
    rw [List.map_cons, List.foldlM_cons, hadd]
    show (rest.map Statement.ofMember).foldlM Progress.add _ = _
    rw [ih (by rw [List.map_append]; exact h), List.append_assoc]
    rfl

theorem dropByteOrderMark_of_spellsLines {members : List (String × Value)} {text : List Char}
    (h : SpellsLines members text) : dropByteOrderMark text = text := by
  cases h with
  | nil => rfl
  | @cons member members line ending rest h _ _ =>
    obtain ⟨c, tail, hline, hc⟩ := exists_cons_of_spellsMember h
    have hmark : c ≠ '\uFEFF' := by
      rintro rfl
      exact absurd hc (by decide)
    rw [hline]
    unfold dropByteOrderMark
    split
    · rename_i heq
      exact absurd (List.cons.inj heq).1 hmark
    · rfl

/-- A file in which no key stands twice holds its keys and values. -/
theorem read?_of_spellsLines {members : List (String × Value)} {text : String}
    (h : SpellsLines members text.toList) (hnodup : (members.map Prod.fst).Nodup) :
    Members.read? text = some (members.map fun member => (member.1, .value member.2)) := by
  have hadd : (members.map Statement.ofMember).foldlM Progress.add ⟨[], []⟩ =
      some ⟨members.map (fun member => (member.1, .value member.2)), []⟩ :=
    foldlM_add_ofMember hnodup
  rw [Members.read?, dropByteOrderMark_of_spellsLines h, statements?_of_spellsLines h]
  show ((members.map Statement.ofMember).foldlM Progress.add ⟨[], []⟩).bind _ = _
  rw [hadd]
  rfl

end AppRoutes.Toml
