/-
The command line of an update.

An update is all that stands after its word, so its arguments are told from its items: the words
in their order, and for a flag that may be repeated its values in theirs.
-/
import AppRoutes.Proofs.CommandLine.Spelling

namespace AppRoutes.CommandLine

/-- The arguments of an update are those that its items give. -/
structure UpdateArguments.Gathers (arguments : UpdateArguments) (items : List Item) : Prop where
  app : some arguments.app = (Item.words items)[0]?
  path : arguments.path = (Item.words items)[1]?
  config : arguments.fields.config = Item.values .config items
  headers : arguments.fields.headers = Item.values .headers items
  unsetConfig : arguments.unsetConfig = Item.values .unsetConfig items
  unsetHeader : arguments.unsetHeader = Item.values .unsetHeader items

theorem ofLevel_routesUpdate_eq_ok {level : Level} {command : Command}
    (h : Command.ofLevel .routesUpdate level = .ok command) :
    ∃ app rest, level.words = app :: rest ∧
      command = .update ⟨app, rest[0]?, rest[1]?, level.image, level.fields, level.unsetConfig,
        level.unsetHeader⟩ := by
  cases hwords : level.words with
  | nil =>
    simp only [Command.ofLevel, hwords] at h
    cases h
  | cons app rest =>
    simp only [Command.ofLevel, hwords] at h
    split at h
    · cases h
    · exact ⟨app, rest, rfl, (Except.ok.inj h).symm⟩

theorem ofLevel_routesUpdate_of_words {level : Level} (hwords : level.words ≠ [])
    (himage : level.image = none) :
    ∃ command, Command.ofLevel .routesUpdate level = .ok command := by
  obtain ⟨app, rest, hcons⟩ := List.exists_cons_of_ne_nil hwords
  refine ⟨.update ⟨app, rest[0]?, rest[1]?, level.image, level.fields, level.unsetConfig,
    level.unsetHeader⟩, ?_⟩
  simp [Command.ofLevel, hcons, himage]

/-- A word that chooses a command leaves the rest to it. -/
theorem scan_child {name child : CommandName} {word : String}
    (hchild : name.child? word = some child) (rest : List String) :
    scan name {} (word :: rest) =
      (scan child {} rest).map fun scanned => ({} :: scanned.1, scanned.2) := by
  have hword : isSubcommand name word = true := by simp [isSubcommand, hchild]
  rw [scan, hword, hchild]
  show Except.bind (scan child {} rest) _ = _
  cases scan child {} rest <;> rfl

/-- A command on routes is chosen by any of its words. -/
theorem child?_routes {name : CommandName} (hname : name ∈ CommandName.routes.children)
    {word : String} (hword : word ∈ name.words) :
    CommandName.child? .routes word = some name := by
  have hall : ∀ name ∈ CommandName.routes.children, ∀ word ∈ name.words,
      CommandName.child? .routes word = some name := by
    decide
  exact hall name hname word hword

/-- The words that follow a command on routes are read as the items that they stand for. -/
theorem parse_routes {name : CommandName} (hname : name ∈ CommandName.routes.children)
    (hleaf : name.children = []) {word : String} (hword : word ∈ name.words) {items : List Item}
    {words : List String} (h : Spells name items words) :
    (parse ("routes" :: word :: words)).toOption =
      (({} : Level).taken? name items).bind fun level =>
        (Command.ofLevel name level).toOption.map (Arguments.ofLevels [{}, {}, level]) := by
  have hroutes : CommandName.child? .program "routes" = some .routes := by decide
  have hscan : (scan name {} words).toOption =
      (({} : Level).taken? name items).bind (completed? name) :=
    scan_of_spells hleaf h {} rfl rfl
  have hparse : (parse ("routes" :: word :: words)).toOption =
      (scan name {} words).toOption.map fun scanned =>
        Arguments.ofLevels ({} :: {} :: scanned.1) scanned.2 := by
    rw [parse, scan_child hroutes, scan_child (child?_routes hname hword)]
    cases scan name {} words <;> rfl
  rw [hparse, hscan, Option.map_bind]
  refine congrArg (Option.bind _) (funext fun level => ?_)
  show Option.map _ (completed? name level) = _
  rw [completed?, Option.map_map]
  rfl

/-- Whatever update a command line comes to has its arguments from the items, in their order. -/
theorem gathers_of_parse {word : String} (hword : word ∈ CommandName.routesUpdate.words)
    {items : List Item} {words : List String} (h : Spells .routesUpdate items words)
    {arguments : Arguments} (hparse : parse ("routes" :: word :: words) = .ok arguments) :
    ∃ update : UpdateArguments, arguments.command = .update update ∧ update.Gathers items := by
  have hsome := parse_routes (by decide) rfl hword h
  rw [hparse] at hsome
  obtain ⟨level, hlevel, hmap⟩ := Option.bind_eq_some_iff.mp hsome.symm
  obtain ⟨command, hcommand, rfl⟩ := Option.map_eq_some_iff.mp hmap
  have htaken : ({} : Level).takeAll .routesUpdate items = .ok level :=
    toOption_eq_some_iff.mp hlevel
  obtain ⟨app, rest, hwords, rfl⟩ :=
    ofLevel_routesUpdate_eq_ok (toOption_eq_some_iff.mp hcommand)
  have hitems : app :: rest = Item.words items := by
    rw [← hwords, Level.words_takeAll htaken]
    rfl
  have hgathered : ∀ flag ∈ Flag.repeatable, level.gathered flag = Item.values flag items :=
    fun flag hflag => by
      rw [Level.gathered_takeAll hflag htaken]
      cases flag <;> rfl
  exact ⟨_, rfl, {
    app := by rw [← hitems]; rfl
    path := by rw [← hitems]; rfl
    config := hgathered .config (by decide)
    headers := hgathered .headers (by decide)
    unsetConfig := hgathered .unsetConfig (by decide)
    unsetHeader := hgathered .unsetHeader (by decide) }⟩

/-- Up to three words, the first of which is needed, and flags that may be repeated are always
an update. -/
theorem exists_parse_update {word : String} (hword : word ∈ CommandName.routesUpdate.words)
    {items : List Item} {words : List String} (h : Spells .routesUpdate items words)
    (hitems : ∀ item ∈ items, item.isRepeatable = true)
    (hnonempty : Item.words items ≠ []) (hcount : (Item.words items).length ≤ 3) :
    ∃ arguments, parse ("routes" :: word :: words) = .ok arguments := by
  have hroom : ({} : Level).words.length + (Item.words items).length ≤
      CommandName.routesUpdate.maxWords := by
    rw [List.length_nil, Nat.zero_add]
    exact hcount
  obtain ⟨level, htaken, himage⟩ := Level.takeAll_of_repeatable (by decide) hitems hroom
  have hwords : level.words ≠ [] := by
    rw [Level.words_takeAll htaken]
    exact hnonempty
  obtain ⟨command, hcommand⟩ := ofLevel_routesUpdate_of_words hwords himage
  have hsome := parse_routes (by decide) rfl hword h
  rw [Level.taken?, htaken] at hsome
  refine ⟨Arguments.ofLevels [{}, {}, level] command, toOption_eq_some_iff.mp (hsome.trans ?_)⟩
  show (Command.ofLevel .routesUpdate level).toOption.map _ = _
  rw [hcommand]
  rfl

end AppRoutes.CommandLine
