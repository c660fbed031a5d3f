/-
How items are written.

`Spells` says which words stand for which items: a value in the word of its flag or in the next
one, several letters behind one hyphen, and after two hyphens nothing but words.  Scanning leaves
a value or a word pending until the next one comes, so of two faults it may report the later one.
What it reads does not depend on that: `scan_of_spells` says that it fails exactly if the items
cannot be taken in turn, and comes to their level if they can.
-/
import AppRoutes.Proofs.CommandLine.Items

namespace AppRoutes.CommandLine
open Text

/-- The word is no flag: it begins without a hyphen, or is the hyphen alone. -/
def IsPlain (word : String) : Prop := ∀ rest, word.toList = '-' :: rest → rest = []

theorem isPlain_of_head {word : String} (h : word.toList.head? ≠ some '-') : IsPlain word := by
  intro rest hword
  rw [hword] at h
  exact absurd rfl h

/-- Each letter stands for its flag, which takes no value. -/
def Raised (name : CommandName) (raised : List (Char × Flag)) : Prop :=
  ∀ entry ∈ raised, name.flagOfLetter? entry.1 = some entry.2 ∧ entry.2.takesValue = false

/-- How items are written that belong together: one item, or several behind one hyphen. -/
inductive SpellsPart (name : CommandName) : List Item → List String → Prop
  | word {text : String} (h : IsPlain text) : SpellsPart name [.word text] [text]
  | long {flag : Flag} {key : String} (hflag : name.flagOfName? key = some flag)
      (htakes : flag.takesValue = true) (value : String) :
      SpellsPart name [.option flag value] ["--" ++ key ++ "=" ++ value]
  | longApart {flag : Flag} {key value : String} (hflag : name.flagOfName? key = some flag)
      (htakes : flag.takesValue = true) (hvalue : IsPlain value) :
      SpellsPart name [.option flag value] ["--" ++ key, value]
  | longRaise {flag : Flag} {key : String} (hflag : name.flagOfName? key = some flag)
      (htakes : flag.takesValue = false) : SpellsPart name [.raise flag] ["--" ++ key]
  | letters {raised : List (Char × Flag)} (h : Raised name raised) (hne : raised ≠ []) :
      SpellsPart name (raised.map fun entry => .raise entry.2)
        [String.ofList ('-' :: raised.map Prod.fst)]
  /-- An equals sign before the value does not count. -/
  | lettersOption {raised : List (Char × Flag)} (h : Raised name raised) {letter : Char}
      {flag : Flag} (hletter : name.flagOfLetter? letter = some flag)
      (htakes : flag.takesValue = true) {attached value : List Char}
      (hattached : attached = '=' :: value ∨
        attached = value ∧ value ≠ [] ∧ value.head? ≠ some '=') :
      SpellsPart name
        ((raised.map fun entry => .raise entry.2) ++ [.option flag (String.ofList value)])
        [String.ofList ('-' :: (raised.map Prod.fst ++ letter :: attached))]
  | lettersApart {raised : List (Char × Flag)} (h : Raised name raised) {letter : Char}
      {flag : Flag} (hletter : name.flagOfLetter? letter = some flag)
      (htakes : flag.takesValue = true) {value : String} (hvalue : IsPlain value) :
      SpellsPart name ((raised.map fun entry => .raise entry.2) ++ [.option flag value])
        [String.ofList ('-' :: (raised.map Prod.fst ++ [letter])), value]

/-- How items are written one after another. -/
inductive Spells (name : CommandName) : List Item → List String → Prop
  | nil : Spells name [] []
  | cons {part items : List Item} {first words : List String} (h : SpellsPart name part first)
      (hrest : Spells name items words) : Spells name (part ++ items) (first ++ words)
  | literal (texts : List String) : Spells name (texts.map .word) ("--" :: texts)

theorem letter_ne_hyphen {name : CommandName} {letter : Char} {flag : Flag}
    (h : name.flagOfLetter? letter = some flag) : letter ≠ '-' := by
  have hletter : flag.letter? = some letter := by simpa using List.find?_some h
  rintro rfl
  cases flag <;> simp [Flag.letter?] at hletter

theorem plain_key {name : CommandName} {key : String} {flag : Flag}
    (h : name.flagOfName? key = some flag) : key.toList ≠ [] ∧ '=' ∉ key.toList := by
  have hkey : key ∈ flag.names := by simpa using List.find?_some h
  have hall : ∀ key ∈ flag.names, key.toList ≠ [] ∧ '=' ∉ key.toList := by
    cases flag <;> simp [Flag.names]
  exact hall key hkey

namespace Progress

/-- The level with what is pending read. -/
def settledLevel (name : CommandName) (progress : Progress) : Except UsageError Level :=
  match progress.pending with
  | none => .ok progress.level
  | some (.flag _) => .error .invalidValue
  | some (.value flag text) => progress.level.setFlag flag text
  | some (.word text) => progress.level.addWord name text

theorem settle_eq (name : CommandName) (progress : Progress) :
    progress.settle name =
      (progress.settledLevel name).map fun level => ⟨level, none, progress.isLiteral⟩ := by
  obtain ⟨level, _ | pending, isLiteral⟩ := progress
  · rfl
  · cases pending with
    | flag flag => rfl
    | value flag text =>
      show (level.setFlag flag text).bind _ = (level.setFlag flag text).map _
      cases level.setFlag flag text <;> rfl
    | word text =>
      show (level.addWord name text).bind _ = (level.addWord name text).map _
      cases level.addWord name text <;> rfl

theorem words_length_of_settledLevel {name : CommandName} {progress : Progress} {level : Level}
    (h : progress.settledLevel name = .ok level) : level.words.length = progress.wordCount := by
  obtain ⟨before, _ | pending, isLiteral⟩ := progress
  · cases h
    rfl
  · cases pending with
    | flag flag => cases h
    | value flag text => exact congrArg List.length (Level.words_setFlag h)
    | word text =>
      rw [Level.words_addWord h]
      exact List.length_append

/-- A step of reading fails if there is no level to reach, and else it leaves a progress whose
level, with what is pending read, is the one to reach. -/
def Reaches (name : CommandName) (isLiteral : Bool) (level : Option Level) :
    Except UsageError Progress → Prop
  | .ok after => after.isLiteral = isLiteral ∧ after.waiting? = none ∧
      (after.settledLevel name).toOption = level
  | .error _ => level = none

theorem reaches_addWord (name : CommandName) (text : String) (progress : Progress) :
    Reaches name progress.isLiteral
      ((progress.settledLevel name).toOption.bind (·.taken? name [.word text]))
      (progress.addWord name text) := by
  rw [addWord, settle_eq]
  cases hlevel : progress.settledLevel name with
  | error e => split <;> rfl
  | ok level =>
    have hcount := words_length_of_settledLevel hlevel
    show Reaches _ _ (level.taken? name [.word text]) _
    rw [Level.taken?_singleton, Level.take]
    by_cases hroom : progress.wordCount < name.maxWords
    · rw [if_pos hroom, if_pos (hcount ▸ hroom)]
      exact ⟨rfl, rfl, rfl⟩
    · rw [if_neg hroom, if_neg (hcount ▸ hroom)]
      rfl

/-- The step reads the items, from wherever a flag or a word may come next. -/
def ReadsAs (name : CommandName) (step : Progress → Except UsageError Progress)
    (items : List Item) : Prop :=
  ∀ progress : Progress, progress.isLiteral = false → progress.waiting? = none →
    Reaches name false ((progress.settledLevel name).toOption.bind (·.taken? name items))
      (step progress)

variable {name : CommandName}

theorem readsAs_pure : ReadsAs name pure [] := by
  intro progress hliteral hwaiting
  refine ⟨hliteral, hwaiting, ?_⟩
  cases progress.settledLevel name <;> rfl

theorem ReadsAs.congr {step other : Progress → Except UsageError Progress} {items : List Item}
    (h : ReadsAs name step items)
    (hother : ∀ progress : Progress, progress.isLiteral = false → other progress = step progress) :
    ReadsAs name other items := by
  intro progress hliteral hwaiting
  rw [hother progress hliteral]
  exact h progress hliteral hwaiting

theorem readsAs_bind {first next : Progress → Except UsageError Progress} {items rest : List Item}
    (hfirst : ReadsAs name first items) (hnext : ReadsAs name next rest) :
    ReadsAs name (fun progress => first progress >>= next) (items ++ rest) := by
  intro progress hliteral hwaiting
  have hreach := hfirst progress hliteral hwaiting
  simp only [Level.taken?_append, ← Option.bind_assoc]
  cases hstep : first progress with
  | error e =>
    rw [hstep] at hreach
    exact congrArg (Option.bind · _) hreach
  | ok after =>
    rw [hstep] at hreach
    obtain ⟨hliteral, hwaiting, hlevel⟩ := hreach
    rw [← hlevel]
    exact hnext after hliteral hwaiting

theorem readsAs_raise (flag : Flag) : ReadsAs name (raise name flag) [.raise flag] := by
  intro progress hliteral hwaiting
  rw [raise, settle_eq]
  cases progress.settledLevel name with
  | error e => rfl
  | ok level =>
    show Reaches _ _ (level.taken? name [.raise flag])
      ((level.raiseFlag name flag).bind fun level => .ok ⟨level, none, progress.isLiteral⟩)
    rw [Level.taken?_singleton, Level.take]
    cases level.raiseFlag name flag with
    | error e => rfl
    | ok after => exact ⟨hliteral, rfl, rfl⟩

theorem readsAs_option (flag : Flag) (value : List Char) :
    ReadsAs name (option name flag (some value)) [.option flag (String.ofList value)] := by
  intro progress hliteral hwaiting
  rw [option, settle_eq]
  cases progress.settledLevel name with
  | error e => rfl
  | ok level =>
    show Reaches _ _ (level.taken? name [.option flag (String.ofList value)])
      ((level.setFlag flag (String.ofList value)).bind fun level =>
        .ok ⟨level, none, progress.isLiteral⟩)
    rw [Level.taken?_singleton, Level.take]
    cases level.setFlag flag (String.ofList value) with
    | error e => rfl
    | ok after => exact ⟨hliteral, rfl, rfl⟩

theorem read_of_isPlain {word : String} (h : IsPlain word) (progress : Progress)
    (hliteral : progress.isLiteral = false) :
    progress.read name word =
      match progress.waiting? with
      | some flag => .ok { progress with pending := some (.value flag word) }
      | none => progress.addWord name word := by
  rw [read, hliteral, if_neg (by decide)]
  split
  · rename_i hword
    cases h _ hword
  · rename_i hword
    cases h _ hword
  · rename_i hword
    cases h _ hword
  · rfl

theorem readsAs_word {word : String} (h : IsPlain word) :
    ReadsAs name (read name word) [.word word] := by
  intro progress hliteral hwaiting
  rw [read_of_isPlain h progress hliteral, hwaiting, ← hliteral]
  exact reaches_addWord name word progress

theorem readsAs_apart (flag : Flag) {value : String} (hvalue : IsPlain value) :
    ReadsAs name (fun progress => option name flag none progress >>= read name value)
      [.option flag value] := by
  intro progress hliteral hwaiting
  dsimp only
  rw [option, settle_eq]
  cases progress.settledLevel name with
  | error e => rfl
  | ok level =>
    show Reaches _ _ (level.taken? name [.option flag value])
      (read name value ⟨level, some (.flag flag), progress.isLiteral⟩)
    rw [read_of_isPlain hvalue ⟨level, some (.flag flag), progress.isLiteral⟩ hliteral,
      Level.taken?_singleton]
    exact ⟨hliteral, rfl, rfl⟩

/-- Letters that raise flags may stand before other letters of a word. -/
theorem readsAs_letters {raised : List (Char × Flag)} (h : Raised name raised) {rest : List Char}
    {next : Progress → Except UsageError Progress} {items : List Item}
    (hrest : ReadsAs name (fun progress => letters name rest progress >>= next) items) :
    ReadsAs name (fun progress => letters name (raised.map Prod.fst ++ rest) progress >>= next)
      ((raised.map fun entry => .raise entry.2) ++ items) := by
  induction raised with
  | nil => exact hrest
  | cons entry raised ih =>
    obtain ⟨⟨hletter, hraises⟩, h⟩ := List.forall_mem_cons.mp h
    have hletters : (fun progress =>
        letters name ((entry :: raised).map Prod.fst ++ rest) progress >>= next) =
        fun progress => raise name entry.2 progress >>= fun progress =>
          letters name (raised.map Prod.fst ++ rest) progress >>= next := by
      funext progress
      rw [List.map_cons, List.cons_append, letters, hletter]
      simp only [hraises, Bool.false_eq_true, if_false, bind_assoc]
    rw [hletters]
    show ReadsAs name _ ([.raise entry.2] ++ ((raised.map fun entry => .raise entry.2) ++ items))
    exact readsAs_bind (readsAs_raise entry.2) (ih h)

theorem letters_option {letter : Char} {flag : Flag}
    (hletter : name.flagOfLetter? letter = some flag) (htakes : flag.takesValue = true)
    (attached : List Char) (progress : Progress) :
    letters name (letter :: attached) progress =
      option name flag (attached? attached) progress := by
  rw [letters, hletter]
  simp only [htakes, if_true]

theorem attached?_eq_some {attached value : List Char}
    (h : attached = '=' :: value ∨ attached = value ∧ value ≠ [] ∧ value.head? ≠ some '=') :
    attached? attached = some value := by
  rcases h with rfl | ⟨rfl, hne, hhead⟩
  · rfl
  · unfold attached?
    split
    · exact absurd rfl hne
    · exact absurd rfl hhead
    · rfl

theorem read_letters {raised : List (Char × Flag)} (h : Raised name raised) {rest : List Char}
    (hrest : ∀ letter ∈ rest.head?, letter ≠ '-') (hne : raised.map Prod.fst ++ rest ≠ [])
    (progress : Progress) (hliteral : progress.isLiteral = false) :
    progress.read name (String.ofList ('-' :: (raised.map Prod.fst ++ rest))) =
      letters name (raised.map Prod.fst ++ rest) progress := by
  obtain ⟨first, tail, htext⟩ := List.exists_cons_of_ne_nil hne
  have hfirst : first ≠ '-' := by
    cases raised with
    | nil => exact hrest first (by rw [List.map_nil, List.nil_append] at htext; rw [htext]; rfl)
    | cons entry raised =>
      obtain ⟨rfl, -⟩ := List.cons.inj htext
      exact letter_ne_hyphen (h entry List.mem_cons_self).1
  rw [htext, read, hliteral, if_neg (by decide), String.toList_ofList]
  split <;> simp_all

theorem read_long {key : String} (hkey : key.toList ≠ []) (rest : String) (progress : Progress)
    (hliteral : progress.isLiteral = false) :
    progress.read name ("--" ++ key ++ rest) =
      longFlag name (key.toList ++ rest.toList) progress := by
  obtain ⟨first, tail, htext⟩ := List.exists_cons_of_ne_nil hkey
  have hword : ("--" ++ key ++ rest).toList = '-' :: '-' :: first :: (tail ++ rest.toList) := by
    rw [String.toList_append, String.toList_append, htext]
    rfl
  rw [read, hliteral, if_neg (by decide), hword, htext]
  rfl

theorem longFlag_option {key : List Char} {flag : Flag}
    (hflag : name.flagOfName? (String.ofList key) = some flag) (htakes : flag.takesValue = true)
    (hequals : '=' ∉ key) (value : List Char) (progress : Progress) :
    longFlag name (key ++ '=' :: value) progress = option name flag (some value) progress := by
  rw [longFlag, cut?_append_cons hequals]
  simp only [hflag, htakes, if_true]

theorem longFlag_bare {key : List Char} {flag : Flag}
    (hflag : name.flagOfName? (String.ofList key) = some flag) (hequals : '=' ∉ key)
    (progress : Progress) :
    longFlag name key progress =
      if flag.takesValue then option name flag none progress else raise name flag progress := by
  rw [longFlag, cut?_eq_none_iff.mpr hequals]
  simp only [hflag, Option.isSome_none, Bool.false_eq_true, if_false]

theorem read_bare {key : String} (hkey : key.toList ≠ []) (progress : Progress)
    (hliteral : progress.isLiteral = false) :
    progress.read name ("--" ++ key) = longFlag name key.toList progress := by
  have hread := @read_long name key hkey "" progress hliteral
  rwa [String.append_empty, String.toList_empty, List.append_nil] at hread

/-- Read words that choose no command. -/
def readAll (name : CommandName) (words : List String) (progress : Progress) :
    Except UsageError Progress :=
  words.foldlM (fun progress word => progress.read name word) progress

theorem readAll_singleton (word : String) (progress : Progress) :
    readAll name [word] progress = progress.read name word := by
  rw [readAll, List.foldlM_cons]
  exact bind_pure _

theorem readAll_pair (first second : String) (progress : Progress) :
    readAll name [first, second] progress = progress.read name first >>= read name second := by
  rw [readAll, List.foldlM_cons]
  exact congrArg (progress.read name first >>= ·) (funext fun _ => readAll_singleton second _)

/-- Words are read as the items that they stand for. -/
theorem readsAs_of_spellsPart {items : List Item} {words : List String}
    (h : SpellsPart name items words) : ReadsAs name (readAll name words) items := by
  cases h with
  | @word text h => exact (readsAs_word h).congr fun progress _ => readAll_singleton text progress
  | @long flag key hflag htakes value =>
    obtain ⟨hne, hequals⟩ := plain_key hflag
    rw [← String.ofList_toList (s := key)] at hflag
    have hoption := @readsAs_option name flag value.toList
    rw [String.ofList_toList] at hoption
    refine hoption.congr fun progress hliteral => ?_
    rw [readAll_singleton, String.append_assoc, read_long hne _ progress hliteral,
      String.toList_append]
    exact longFlag_option hflag htakes hequals value.toList progress
  | @longApart flag key value hflag htakes hvalue =>
    obtain ⟨hne, hequals⟩ := plain_key hflag
    rw [← String.ofList_toList (s := key)] at hflag
    refine (readsAs_apart flag hvalue).congr fun progress hliteral => ?_
    rw [readAll_pair, read_bare hne progress hliteral, longFlag_bare hflag hequals, if_pos htakes]
  | @longRaise flag key hflag htakes =>
    obtain ⟨hne, hequals⟩ := plain_key hflag
    rw [← String.ofList_toList (s := key)] at hflag
    refine (readsAs_raise flag).congr fun progress hliteral => ?_
    rw [readAll_singleton, read_bare hne progress hliteral, longFlag_bare hflag hequals,
      htakes, if_neg (by decide)]
  | @letters raised h hne =>
    have hnone : ReadsAs name (fun progress => letters name [] progress >>= pure) [] := readsAs_pure
    have hread := readsAs_letters h hnone
    rw [List.append_nil, List.append_nil] at hread
    refine hread.congr fun progress hliteral => ?_
    have hword := @read_letters name raised h [] nofun (by simpa using hne) progress hliteral
    rw [List.append_nil] at hword
    rw [readAll_singleton, hword, bind_pure]
  | @lettersOption raised h letter flag hletter htakes attached value hattached =>
    have hhyphen := letter_ne_hyphen hletter
    have hoption : ReadsAs name
        (fun progress => letters name (letter :: attached) progress >>= pure)
        [.option flag (String.ofList value)] :=
      (readsAs_option flag value).congr fun progress _ => by
        rw [bind_pure, letters_option hletter htakes, attached?_eq_some hattached]
    refine (readsAs_letters h hoption).congr fun progress hliteral => ?_
    rw [readAll_singleton, read_letters h (by simpa using hhyphen) (by simp) progress hliteral,
      bind_pure]
  | @lettersApart raised h letter flag hletter htakes value hvalue =>
    have hhyphen := letter_ne_hyphen hletter
    have hoption : ReadsAs name (fun progress => letters name [letter] progress >>= read name value)
        [.option flag value] :=
      (readsAs_apart flag hvalue).congr fun progress _ => by
        rw [letters_option hletter htakes]
        rfl
    refine (readsAs_letters h hoption).congr fun progress hliteral => ?_
    rw [readAll_pair, read_letters h (by simpa using hhyphen) (by simp) progress hliteral]

end Progress

/-! ## Scanning -/

open Progress

variable {name : CommandName}

/-- A command without commands below it reads all words itself. -/
theorem scan_append (hleaf : name.children = []) (words rest : List String) (progress : Progress) :
    scan name progress (words ++ rest) = readAll name words progress >>= (scan name · rest) := by
  have hnone : ∀ word, isSubcommand name word = false := fun word => by
    simp [isSubcommand, CommandName.child?, hleaf]
  induction words generalizing progress with
  | nil => rfl
  | cons word words ih =>
    rw [List.cons_append, scan, hnone, Bool.and_false, if_neg (by decide), readAll,
      List.foldlM_cons, bind_assoc]
    exact congrArg (progress.read name word >>= ·) (funext fun after => ih after)

/-- A level as the outcome of scanning, if it makes a command. -/
def completed? (name : CommandName) (level : Level) : Option (List Level × Command) :=
  (Command.ofLevel name level).toOption.map ([level], ·)

theorem scan_nil_eq (progress : Progress) :
    (scan name progress []).toOption =
      (progress.settledLevel name).toOption.bind (completed? name) := by
  rw [scan, settle_eq]
  cases progress.settledLevel name with
  | error e => rfl
  | ok level =>
    show (Except.bind (Command.ofLevel name level) fun command => .ok ([level], command)).toOption =
      (Command.ofLevel name level).toOption.map ([level], ·)
    cases Command.ofLevel name level <;> rfl

/-- Scanning goes on from the level that a step of reading reaches. -/
theorem scan_of_reaches {isLiteral : Bool} {level : Option Level}
    {step : Except UsageError Progress} (h : Reaches name isLiteral level step)
    {words : List String} {rest : Level → Option (List Level × Command)}
    (hrest : ∀ after : Progress, after.isLiteral = isLiteral → after.waiting? = none →
      (scan name after words).toOption = (after.settledLevel name).toOption.bind rest) :
    (step >>= (scan name · words)).toOption = level.bind rest := by
  cases step with
  | error e =>
    obtain rfl : level = none := h
    rfl
  | ok after =>
    obtain ⟨hliteral, hwaiting, hlevel⟩ := h
    rw [← hlevel]
    exact hrest after hliteral hwaiting

theorem scan_literal (hleaf : name.children = []) (texts : List String) (progress : Progress)
    (hliteral : progress.isLiteral = true) (hwaiting : progress.waiting? = none) :
    (scan name progress texts).toOption =
      (progress.settledLevel name).toOption.bind fun level =>
        (level.taken? name (texts.map .word)).bind (completed? name) := by
  induction texts generalizing progress with
  | nil => exact scan_nil_eq progress
  | cons text texts ih =>
    have hread : progress.read name text = progress.addWord name text := by
      rw [Progress.read, hliteral, if_pos rfl]
    have hreach := reaches_addWord name text progress
    rw [hliteral, ← hread] at hreach
    have hscan := scan_append hleaf [text] texts progress
    rw [readAll_singleton, List.singleton_append] at hscan
    rw [hscan, scan_of_reaches hreach ih, Option.bind_assoc]
    refine congrArg (Option.bind _) (funext fun level => ?_)
    show _ = (level.taken? name ([.word text] ++ texts.map .word)).bind (completed? name)
    rw [Level.taken?_append, Option.bind_assoc]

/-- Words that stand for items are read as the items are taken in turn, and the command they
make is the one of the level that is left. -/
theorem scan_of_spells (hleaf : name.children = []) {items : List Item} {words : List String}
    (h : Spells name items words) (progress : Progress) (hliteral : progress.isLiteral = false)
    (hwaiting : progress.waiting? = none) :
    (scan name progress words).toOption =
      (progress.settledLevel name).toOption.bind fun level =>
        (level.taken? name items).bind (completed? name) := by
  -- The induction is on how the words are written.  What is carried along is the level with what
  -- is pending read; the progress itself depends on where a value stands.
  induction h generalizing progress with
  | nil => exact scan_nil_eq progress
  | @cons part items first words h hrest ih =>
    have hreach := readsAs_of_spellsPart h progress hliteral hwaiting
    rw [scan_append hleaf, scan_of_reaches hreach ih, Option.bind_assoc]
    refine congrArg (Option.bind _) (funext fun level => ?_)
    rw [Level.taken?_append, Option.bind_assoc]
  | literal texts =>
    have hread : readAll name ["--"] progress = .ok { progress with isLiteral := true } := by
      rw [readAll_singleton, Progress.read, hliteral]
      rfl
    have hscan := scan_append hleaf ["--"] texts progress
    rw [List.singleton_append, hread] at hscan
    rw [hscan]
    exact scan_literal hleaf texts { progress with isLiteral := true } rfl hwaiting

end AppRoutes.CommandLine
