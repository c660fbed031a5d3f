/-
Literals that name nothing.

A literal is refused exactly if it holds no equals sign or nothing stands before the first
one.  An accepted literal is its name, an equals sign and its text.  Of several literals the
first one that is refused decides the error, whatever stands after it.
-/
import AppRoutes.Delta.Literal
import AppRoutes.Proofs.Outcome

namespace AppRoutes.Literal

open Text

/-- There is no equals sign, or nothing stands before the first one. -/
def IsMalformed (literal : String) : Prop :=
  '=' ∉ literal.toList ∨ literal.toList.head? = some '='

instance : DecidablePred IsMalformed := fun _ => inferInstanceAs (Decidable (_ ∨ _))

theorem cutName_of_isMalformed (target : Target) {literal : String} (h : IsMalformed literal) :
    cutName target literal = .error (malformed target literal) := by
  unfold cutName
  cases hcut : cut? '=' literal.toList with
  | none => rfl
  | some cut =>
    obtain ⟨name, value⟩ := cut
    obtain ⟨htext, hname⟩ := cut?_eq_some hcut
    have hempty : name = [] := by
      rcases h with hmem | hhead
      · rw [htext] at hmem
        simp at hmem
      · cases name with
        | nil => rfl
        | cons c rest =>
          rw [htext, List.cons_append, List.head?_cons] at hhead
          rw [Option.some.inj hhead] at hname
          simp at hname
    simp [hempty]

theorem cutName_of_not_isMalformed (target : Target) {literal : String}
    (h : ¬ IsMalformed literal) : ∃ cut, cutName target literal = .ok cut := by
  unfold cutName
  cases hcut : cut? '=' literal.toList with
  | none => exact absurd (Or.inl (cut?_eq_none_iff.mp hcut)) h
  | some cut =>
    obtain ⟨name, value⟩ := cut
    obtain ⟨htext, -⟩ := cut?_eq_some hcut
    cases name with
    | nil => exact absurd (Or.inr (by rw [htext]; rfl)) h
    | cons c rest => exact ⟨_, rfl⟩

/-- A name that a literal can carry. -/
def IsName (name : String) : Prop := name ≠ "" ∧ '=' ∉ name.toList

theorem cutName_eq_ok_iff {target : Target} {literal name : String} {text : List Char} :
    cutName target literal = .ok (name, text) ↔
      IsName name ∧ literal = name ++ "=" ++ String.ofList text := by
  constructor
  · intro h
    unfold cutName at h
    cases hcut : cut? '=' literal.toList with
    | none => rw [hcut] at h; cases h
    | some cut =>
      obtain ⟨before, after⟩ := cut
      obtain ⟨hliteral, hbefore⟩ := cut?_eq_some hcut
      rw [hcut] at h
      dsimp only at h
      split at h
      · cases h
      · rename_i hne
        cases h
        refine ⟨⟨by simpa using hne, by simpa using hbefore⟩, ?_⟩
        rw [← String.toList_inj, hliteral]
        simp
  · rintro ⟨⟨hne, hname⟩, rfl⟩
    have htext : (name ++ "=" ++ String.ofList text).toList = name.toList ++ '=' :: text := by
      simp
    rw [cutName, htext, cut?_append_cons hname]
    dsimp only
    rw [if_neg (by simpa using hne), String.ofList_toList]

/-- What a reader accepts that makes a value of the text. -/
theorem bind_cutName_eq_ok_iff {α : Type} {target : Target} {value : List Char → α}
    {literal : String} {entry : Entry α} :
    (do
      let (name, text) ← cutName target literal
      return Entry.set name (value text)) = Except.ok entry ↔
      ∃ name text, IsName name ∧ literal = name ++ "=" ++ String.ofList text ∧
        entry = .set name (value text) := by
  constructor
  · intro h
    obtain ⟨⟨name, text⟩, hcut, hentry⟩ := ok_of_bind h
    obtain ⟨hname, hliteral⟩ := cutName_eq_ok_iff.mp hcut
    exact ⟨name, text, hname, hliteral, (Except.ok.inj hentry).symm⟩
  · rintro ⟨name, text, hname, hliteral, rfl⟩
    rw [cutName_eq_ok_iff.mpr ⟨hname, hliteral⟩]
    rfl

/-- The reader refuses the literals that name nothing, and no others. -/
structure Guards {α : Type} (target : Target) (read : String → Except Error α) : Prop where
  refuses : ∀ literal, IsMalformed literal → read literal = .error (malformed target literal)
  accepts : ∀ literal, ¬ IsMalformed literal → ∃ a, read literal = .ok a

theorem guards_bind_cutName {α : Type} (target : Target) (value : List Char → α) :
    Guards target fun literal => do
      let (name, text) ← cutName target literal
      return Entry.set name (value text) where
  refuses literal h := by
    rw [cutName_of_isMalformed target h]
    rfl
  accepts literal h := by
    obtain ⟨⟨name, text⟩, hcut⟩ := cutName_of_not_isMalformed target h
    rw [hcut]
    exact ⟨_, rfl⟩

theorem guards_parseConfig : Guards .config parseConfig :=
  guards_bind_cutName .config String.ofList

theorem guards_parseHeader : Guards .header parseHeader :=
  guards_bind_cutName .header fun text => (split ';' text).map String.ofList

/-- The error for the first literal that names nothing. -/
def fault? (target : Target) (literals : List String) : Option Error :=
  (literals.find? (fun literal => IsMalformed literal)).map (malformed target)

theorem fault?_eq_none_iff {target : Target} {literals : List String} :
    fault? target literals = none ↔ ∀ literal ∈ literals, ¬ IsMalformed literal := by
  simp [fault?]

theorem Guards.mapM_of_fault?_eq_some {α : Type} {target : Target}
    {read : String → Except Error α} (h : Guards target read) {literals : List String} {e : Error}
    (hfault : fault? target literals = some e) : literals.mapM read = .error e := by
  induction literals with
  | nil => cases hfault
  | cons literal rest ih =>
    rw [fault?, List.find?_cons] at hfault
    rw [List.mapM_cons]
    by_cases hbad : IsMalformed literal
    · simp only [hbad, decide_true, Option.map_some, Option.some.injEq] at hfault
      rw [h.refuses literal hbad, hfault]
      rfl
    · simp only [hbad, decide_false] at hfault
      obtain ⟨a, ha⟩ := h.accepts literal hbad
      rw [ha, ih hfault]
      rfl

theorem Guards.mapM_of_fault?_eq_none {α : Type} {target : Target}
    {read : String → Except Error α} (h : Guards target read) {literals : List String}
    (hfault : fault? target literals = none) : ∃ values, literals.mapM read = .ok values := by
  rw [fault?_eq_none_iff] at hfault
  induction literals with
  | nil => exact ⟨[], rfl⟩
  | cons literal rest ih =>
    obtain ⟨hliteral, hrest⟩ := List.forall_mem_cons.mp hfault
    obtain ⟨a, ha⟩ := h.accepts literal hliteral
    obtain ⟨values, hvalues⟩ := ih hrest
    rw [List.mapM_cons, ha, hvalues]
    exact ⟨a :: values, rfl⟩

end AppRoutes.Literal
