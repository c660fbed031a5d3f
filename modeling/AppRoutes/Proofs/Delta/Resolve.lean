/-
The order of sources.

Of several texts the first one counts that is there and not empty.  A command that finds no
path in this way stops, and so does one for a new route that finds no image.
-/
import AppRoutes.Delta.Resolve
import AppRoutes.Proofs.Delta.Sequence

namespace AppRoutes

/-- The first of the texts that are there and not empty. -/
def firstText? (sources : List (Option String)) : Option String :=
  (sources.filterMap id).find? (fun text => text ≠ "")

theorem firstText?_cons (source : Option String) (rest : List (Option String)) :
    firstText? (source :: rest) = (nonempty? source).or (firstText? rest) := by
  cases source with
  | none => rfl
  | some text =>
    by_cases h : text = ""
    · simp [firstText?, nonempty?, h]
    · simp [firstText?, nonempty?, h]

theorem pickText_eq (flag descriptor : Option String) :
    pickText flag descriptor = firstText? [flag, descriptor] := by
  rw [firstText?_cons, firstText?_cons, pickText]
  exact congrArg (Option.or _) Option.or_none.symm

theorem ne_empty_of_firstText? {sources : List (Option String)} {text : String}
    (h : firstText? sources = some text) : text ≠ "" := by
  simpa using List.find?_some h

theorem firstText?_eq_none_iff {sources : List (Option String)} :
    firstText? sources = none ↔ ∀ text, some text ∈ sources → text = "" := by
  rw [firstText?, List.find?_eq_none]
  simp

theorem nonempty?_of_ne_empty {text : String} (h : text ≠ "") :
    nonempty? (some text) = some text := by
  simp [nonempty?, h]

/-- What is left of several sources is a source like any other. -/
theorem nonempty?_firstText? (sources : List (Option String)) :
    nonempty? (firstText? sources) = firstText? sources := by
  cases h : firstText? sources with
  | none => rfl
  | some text => exact nonempty?_of_ne_empty (ne_empty_of_firstText? h)

/-- The first of the texts is the one that is left when each is passed on until it counts. -/
theorem getD_firstText?_concat (sources : List (Option String)) (last : String) :
    (firstText? (sources ++ [some last])).getD "" = (firstText? sources).getD last := by
  induction sources with
  | nil =>
    by_cases h : last = ""
    · simp [firstText?, h]
    · simp [firstText?, h]
  | cons source rest ih =>
    rw [List.cons_append, firstText?_cons, firstText?_cons, Option.getD_or, Option.getD_or, ih]

section

variable {α : Type} [DecidableEq α] [OfNat α (nat_lit 0)]

theorem nonzero?_of_ne {number : Option α} (h : number ≠ some 0) : nonzero? number = number := by
  cases number with
  | none => rfl
  | some n =>
    have hn : n ≠ 0 := fun hn => h (congrArg some hn)
    simp [nonzero?, hn]

/-- A flag that is not zero goes before the other sources, whatever counts of them. -/
theorem nonzero?_or_of_ne {flag : Option α} (h : flag ≠ some 0) (other : Option α) :
    nonzero? (flag.or other) = flag.or (nonzero? other) := by
  cases flag with
  | none => rfl
  | some n => exact nonzero?_of_ne h

end

/-- The path is looked for first, and the image only for a new route. -/
theorem resolve_eq (mode : Mode) (path : Option String) (flags : Delta)
    (descriptor : Option Descriptor) :
    resolve mode path flags descriptor =
      match firstText? [path, (descriptor.getD {}).path], mode,
          firstText? [flags.image, (descriptor.getD {}).fullName] with
      | none, _, _ => .error missingPath
      | some key, .update, _ => .ok ⟨key, flags.complete (descriptor.getD {})⟩
      | some _, .create, none => .error missingImage
      | some key, .create, some _ =>
        .ok ⟨key, (flags.complete (descriptor.getD {})).withDefaults⟩ := by
  have himage : (flags.complete (descriptor.getD {})).image =
      firstText? [flags.image, (descriptor.getD {}).fullName] := pickText_eq _ _
  unfold resolve
  dsimp only
  rw [pickText_eq]
  cases firstText? [path, (descriptor.getD {}).path] with
  | none => rfl
  | some key =>
    cases mode with
    | update => rfl
    | create =>
      dsimp only
      rw [himage]
      cases firstText? [flags.image, (descriptor.getD {}).fullName] <;> rfl

/-- What a client checks of a path and a delta before it turns to the backend. -/
structure Resolved.Passes (mode : Mode) (resolved : Resolved) : Prop where
  path : resolved.path ≠ ""
  image : mode = .create → (nonempty? resolved.delta.image).isSome = true

theorem passes_of_resolve {mode : Mode} {path : Option String} {flags : Delta}
    {descriptor : Option Descriptor} {resolved : Resolved}
    (h : resolve mode path flags descriptor = .ok resolved) : resolved.Passes mode := by
  rw [resolve_eq] at h
  cases hkey : firstText? [path, (descriptor.getD {}).path] with
  | none =>
    rw [hkey] at h
    cases h
  | some key =>
    rw [hkey] at h
    cases mode with
    | update =>
      cases h
      exact ⟨ne_empty_of_firstText? hkey, nofun⟩
    | create =>
      cases himage : firstText? [flags.image, (descriptor.getD {}).fullName] with
      | none =>
        rw [himage] at h
        cases h
      | some image =>
        rw [himage] at h
        cases h
        refine ⟨ne_empty_of_firstText? hkey, fun _ => ?_⟩
        have hcomplete : (flags.complete (descriptor.getD {})).withDefaults.image = some image :=
          (pickText_eq _ _).trans himage
        rw [hcomplete, nonempty?_of_ne_empty (ne_empty_of_firstText? himage)]
        rfl

end AppRoutes
