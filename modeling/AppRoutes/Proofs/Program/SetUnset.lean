/-
Updates with set and unset flags.

The flags of a map reach it in three steps: the command line gathers them, the command puts what
is unset behind what is set, and the update merges all of it into the stored map.  Neither where
they stand among the other words nor the flags of the other map make a difference.
-/
import AppRoutes.Proofs.CommandLine.Update
import AppRoutes.Proofs.Delta.Overlay
import AppRoutes.Proofs.Program.Writing
import AppRoutes.Proofs.Store.Patch

namespace AppRoutes.Program

open AppRoutes.Action AppRoutes.Directory CommandLine

theorem overlays_config {literals : List String} {entries : List (Entry String)}
    (hread : literals.mapM Literal.parseConfig = .ok entries) (unset : List String)
    (before : Option ConfigMap) :
    Overlays literals unset String.ofList before
      (some (merge (before.getD ∅) (entries ++ unset.map Entry.delete))) := by
  rw [Literal.mapM_eq_ok (fun _ _ => Literal.parseConfig_eq_ok) hread]
  exact overlays_merge literals unset String.ofList before

theorem overlays_headers {literals : List String} {entries : List (Entry (List String))}
    (hread : literals.mapM Literal.parseHeader = .ok entries) (unset : List String)
    (before : Option HeaderMap) :
    Overlays literals unset Literal.listOf before
      (some (merge (before.getD ∅) (entries ++ unset.map Entry.delete))) := by
  rw [Literal.mapM_eq_ok (fun _ _ => Literal.parseHeader_eq_ok) hread]
  exact overlays_merge literals unset Literal.listOf before

/-- Without a fault in its arguments an update is a patch by what its flags and the descriptor
come to. -/
theorem runs_patch_of_fault?_eq_none {context : Context} {descriptor : Option Descriptor}
    (hload : context.Holds descriptor) {arguments : UpdateArguments}
    (hfault : (Writing.update arguments).fault? descriptor = none) (session : Session Store) :
    ∃ config headers key delta,
      arguments.fields.config.mapM Literal.parseConfig = .ok config ∧
      arguments.fields.headers.mapM Literal.parseHeader = .ok headers ∧
      firstText? [arguments.path, (descriptor.getD {}).path] = some key ∧
      delta.config = config ++ arguments.unsetConfig.map Entry.delete ∧
      delta.headers = headers ++ arguments.unsetHeader.map Entry.delete ∧
      ((execute context Store.backend (.update arguments)).runOn session).1 =
        (((Client.patch Store.backend arguments.app key (some delta)).runOn
          session.backend).1.map fun _ => ()).mapError .operation ∧
      ((execute context Store.backend (.update arguments)).runOn session).2.backend =
        ((Client.patch Store.backend arguments.app key (some delta)).runOn session.backend).2 := by
  obtain ⟨hresult, hbackend⟩ :=
    Writing.performs_execute hload Store.backend (.update arguments) session
  obtain ⟨config, headers, key, hconfig, hheaders, hkey, -, hresolved⟩ :=
    Writing.resolved_of_fault?_eq_none hfault
  rw [Writing.runOn_run, hresolved] at hresult hbackend
  dsimp only [Writing.submit] at hresult hbackend
  rw [runOn_discard] at hresult hbackend
  exact ⟨config, headers, key, _, hconfig, hheaders, hkey, rfl, rfl, hresult, hbackend⟩

/-- An update of a store that succeeds leaves both maps as their flags say. -/
theorem overlays_of_update {context : Context} {arguments : UpdateArguments}
    {session : Session Store}
    (h : ((execute context Store.backend (.update arguments)).runOn session).1 = .ok ()) :
    ∃ descriptor key remote kept, context.Holds descriptor ∧
      firstText? [arguments.path, (descriptor.getD {}).path] = some key ∧
      session.backend.route? arguments.app key = some remote ∧
      ((execute context Store.backend (.update arguments)).runOn session).2.backend.route?
        arguments.app key = some kept ∧
      Overlays arguments.fields.config arguments.unsetConfig String.ofList remote.config
        kept.config ∧
      Overlays arguments.fields.headers arguments.unsetHeader Literal.listOf remote.headers
        kept.headers := by
  obtain ⟨descriptor, hload⟩ := (Writing.update arguments).exists_holds_of_ok h
  cases hfault : (Writing.update arguments).fault? descriptor with
  | some e =>
    obtain ⟨hresult, -⟩ :=
      Writing.performs_execute hload Store.backend (.update arguments) session
    rw [Writing.runOn_run, Writing.resolved_of_fault? hfault] at hresult
    cases h.symm.trans hresult
  | none =>
    obtain ⟨config, headers, key, delta, hconfig, hheaders, hkey, hsetConfig, hsetHeaders,
      hresult, hbackend⟩ := runs_patch_of_fault?_eq_none hload hfault session
    obtain ⟨hpatched, hafter⟩ :=
      Store.runOn_patch_eq arguments.app key (some delta) session.backend
    rw [hpatched] at hresult
    cases hold : session.backend.updatable arguments.app key with
    | error e =>
      rw [hold] at hresult
      cases h.symm.trans hresult
    | ok remote =>
      obtain ⟨hseek, -⟩ := Store.updatable_eq_ok.mp hold
      obtain ⟨-, -, hremote⟩ := Store.seek_eq_ok.mp hseek
      rw [Store.updated, hold] at hafter
      refine ⟨descriptor, key, remote, keep arguments.app key (Client.merged remote (some delta)),
        hload, hkey, hremote, ?_, ?_, ?_⟩
      · rw [hbackend, Store.route?, Store.directory_eq_of_withoutRecord hafter]
        exact (binds_put session.backend.directory arguments.app key _).atKey
      · have hoverlays := overlays_config hconfig arguments.unsetConfig remote.config
        rwa [← hsetConfig] at hoverlays
      · have hoverlays := overlays_headers hheaders arguments.unsetHeader remote.headers
        rwa [← hsetHeaders] at hoverlays

/-- A store that is not told to fail updates a route that it holds, if all literals are well
formed. -/
theorem update_succeeds {context : Context} {descriptor : Option Descriptor}
    (hload : context.Holds descriptor) {arguments : UpdateArguments} {session : Session Store}
    (hfailures : session.backend.failures = [])
    (hconfig : ∀ literal ∈ arguments.fields.config, ¬ Literal.IsMalformed literal)
    (hheaders : ∀ literal ∈ arguments.fields.headers, ¬ Literal.IsMalformed literal)
    {key : String} (hkey : firstText? [arguments.path, (descriptor.getD {}).path] = some key)
    {remote : Route} (hremote : session.backend.route? arguments.app key = some remote) :
    ((execute context Store.backend (.update arguments)).runOn session).1 = .ok () := by
  have hfault : (Writing.update arguments).fault? descriptor = none := by
    rw [Writing.fault?_eq_none_iff]
    rintro (⟨literal, hmem, hbad⟩ | ⟨literal, hmem, hbad⟩ | hnone | ⟨hmode, -⟩)
    · exact hconfig literal hmem hbad
    · exact hheaders literal hmem hbad
    · cases hkey.symm.trans (firstText?_eq_none_iff.mpr hnone)
    · cases hmode
  obtain ⟨_, _, found, delta, -, -, hfound, -, -, hresult, -⟩ :=
    runs_patch_of_fault?_eq_none hload hfault session
  obtain rfl : key = found := Option.some.inj (hkey.symm.trans hfound)
  obtain ⟨hpatched, -⟩ := Store.runOn_patch_of_route? (ne_empty_of_firstText? hkey) hfailures
    hremote (some delta)
  rw [hresult, hpatched]
  rfl

/-- However the flags of an update are written and mixed with other words, an update that succeeds
leaves both maps as their own flags say: what is unset is gone, what is set has the text of its
last literal, and all else is as it was.  It succeeds for all well-formed literals and all keys
to unset. -/
theorem update_sets_and_unsets {word : String} (hword : word ∈ CommandName.routesUpdate.words)
    {items : List Item} {words : List String} (hwords : Spells .routesUpdate items words) :
    (∀ (arguments : Arguments) (context : Context) (session : Session Store),
      parse ("routes" :: word :: words) = .ok arguments →
      ((execute context Store.backend arguments.command).runOn session).1 = .ok () →
      ∃ descriptor app key remote kept, context.Holds descriptor ∧
        (Item.words items)[0]? = some app ∧
        firstText? [(Item.words items)[1]?, (descriptor.getD {}).path] = some key ∧
        session.backend.route? app key = some remote ∧
        ((execute context Store.backend arguments.command).runOn session).2.backend.route?
          app key = some kept ∧
        Overlays (Item.values .config items) (Item.values .unsetConfig items) String.ofList
          remote.config kept.config ∧
        Overlays (Item.values .headers items) (Item.values .unsetHeader items) Literal.listOf
          remote.headers kept.headers) ∧
    ((∀ item ∈ items, item.isRepeatable = true) → Item.words items ≠ [] →
      (Item.words items).length ≤ 3 →
      (∀ literal ∈ Item.values .config items, ¬ Literal.IsMalformed literal) →
      (∀ literal ∈ Item.values .headers items, ¬ Literal.IsMalformed literal) →
      ∃ arguments, parse ("routes" :: word :: words) = .ok arguments ∧
        ∀ (context : Context) (descriptor : Option Descriptor) (session : Session Store)
          (app key : String) (remote : Route),
          context.Holds descriptor → session.backend.failures = [] →
          (Item.words items)[0]? = some app →
          firstText? [(Item.words items)[1]?, (descriptor.getD {}).path] = some key →
          session.backend.route? app key = some remote →
          ((execute context Store.backend arguments.command).runOn session).1 = .ok ()) := by
  constructor
  · intro arguments context session hparse hdone
    obtain ⟨update, hcommand, hgathers⟩ := gathers_of_parse hword hwords hparse
    rw [hcommand] at hdone ⊢
    obtain ⟨descriptor, key, remote, kept, hload, hkey, hremote, hkept, hconfig, hheaders⟩ :=
      overlays_of_update hdone
    rw [hgathers.path] at hkey
    rw [hgathers.config, hgathers.unsetConfig] at hconfig
    rw [hgathers.headers, hgathers.unsetHeader] at hheaders
    exact ⟨descriptor, update.app, key, remote, kept, hload, hgathers.app.symm, hkey, hremote,
      hkept, hconfig, hheaders⟩
  · intro hitems hnonempty hcount hconfig hheaders
    obtain ⟨arguments, hparse⟩ := exists_parse_update hword hwords hitems hnonempty hcount
    obtain ⟨update, hcommand, hgathers⟩ := gathers_of_parse hword hwords hparse
    refine ⟨arguments, hparse, ?_⟩
    intro context descriptor session app key remote hload hfailures happ hkey hremote
    obtain rfl : update.app = app := Option.some.inj (hgathers.app.trans happ)
    rw [← hgathers.path] at hkey
    rw [← hgathers.config] at hconfig
    rw [← hgathers.headers] at hheaders
    rw [hcommand]
    exact update_succeeds hload hfailures hconfig hheaders hkey hremote

/-- A key that is set and unset goes, another one that is set is new, and a third one stays. -/
theorem update_sets_and_unsets_hello :
    Spells .routesUpdate
        [.word "app", .option .config "A=1", .option .unsetConfig "A", .word "/hello",
          .option .config "B=x=y", .option .headers "X=a;b"]
        ["app", "-cA=1", "--unset-config", "A", "/hello", "--config=B=x=y", "--header", "X=a;b"] ∧
      ∃ arguments, parse ["routes", "u", "app", "-cA=1", "--unset-config", "A", "/hello",
          "--config=B=x=y", "--header", "X=a;b"] = .ok arguments ∧
        ∃ kept, ((execute (Context.beside {}) Store.backend arguments.command).runOn
            { backend := ({} : Store).addRoute "app"
                { path := "/hello", config := some ((∅ : ConfigMap).insert "C" "2") } }
          ).2.backend.route? "app" "/hello" = some kept ∧
          (kept.config.getD ∅).get? "A" = none ∧ (kept.config.getD ∅).get? "B" = some "x=y" ∧
          (kept.config.getD ∅).get? "C" = some "2" ∧
          (kept.headers.getD ∅).get? "X" = some ["a", "b"] := by
  have happ : SpellsPart .routesUpdate [.word "app"] ["app"] := .word (isPlain_of_head (by decide))
  have hset : SpellsPart .routesUpdate [.option .config "A=1"] ["-cA=1"] :=
    @SpellsPart.lettersOption .routesUpdate [] nofun 'c' .config rfl rfl _ ['A', '=', '1']
      (Or.inr ⟨rfl, by decide, by decide⟩)
  have hunset : SpellsPart .routesUpdate [.option .unsetConfig "A"] ["--unset-config", "A"] :=
    @SpellsPart.longApart .routesUpdate .unsetConfig "unset-config" "A" rfl rfl
      (isPlain_of_head (by decide))
  have hpath : SpellsPart .routesUpdate [.word "/hello"] ["/hello"] :=
    .word (isPlain_of_head (by decide))
  have hagain : SpellsPart .routesUpdate [.option .config "B=x=y"] ["--config=B=x=y"] :=
    @SpellsPart.long .routesUpdate .config "config" rfl rfl "B=x=y"
  have hheader : SpellsPart .routesUpdate [.option .headers "X=a;b"] ["--header", "X=a;b"] :=
    @SpellsPart.longApart .routesUpdate .headers "header" "X=a;b" rfl rfl
      (isPlain_of_head (by decide))
  have hwords := Spells.cons happ (.cons hset (.cons hunset (.cons hpath (.cons hagain
    (.cons hheader .nil)))))
  obtain ⟨hleaves, hsucceeds⟩ := update_sets_and_unsets (by decide : "u" ∈ _) hwords
  obtain ⟨arguments, hparse, hdone⟩ := hsucceeds (by decide) (by decide) (by decide) (by decide)
    (by decide)
  refine ⟨hwords, arguments, hparse, ?_⟩
  obtain ⟨_, app, key, remote, kept, -, happ, hkey, hremote, hkept, hconfig, hheaders⟩ :=
    hleaves arguments (Context.beside {})
      { backend := ({} : Store).addRoute "app"
          { path := "/hello", config := some ((∅ : ConfigMap).insert "C" "2") } }
      hparse (hdone _ _ _ _ _ _ (Context.holds_beside {}) rfl rfl rfl rfl)
  obtain rfl : "app" = app := Option.some.inj happ
  obtain rfl : "/hello" = key := Option.some.inj hkey
  obtain rfl : keep "app" "/hello" { config := some ((∅ : ConfigMap).insert "C" "2") } = remote :=
    Option.some.inj hremote
  obtain ⟨config, hconfig, hvalues⟩ := hconfig
  obtain ⟨headers, hheaders, hlists⟩ := hheaders
  refine ⟨kept, hkept, ?_⟩
  rw [hconfig, hheaders]
  exact ⟨hvalues "A", (hvalues "B").trans (by decide), (hvalues "C").trans (by decide),
    (hlists "X").trans (by decide)⟩

end AppRoutes.Program
