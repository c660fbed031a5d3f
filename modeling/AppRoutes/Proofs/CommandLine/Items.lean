/-
What the items of a command do to its level.

An item is one flag or one further word, however it is written.  Items are taken in turn, and a
flag that may be repeated gathers its values in their order: `gathered_takeAll` says that the
values of one flag are those that its own items give, wherever other items stand between them.
-/
import AppRoutes.CommandLine.Scan
import AppRoutes.Proofs.Outcome

namespace AppRoutes.CommandLine

/-- The flags that may be repeated, with a value each. -/
def Flag.repeatable : List Flag := [.config, .headers, .unsetConfig, .unsetHeader, .env]

/-- One flag of a command, with its value if it takes one, or a further word. -/
inductive Item where
  | word (text : String)
  | option (flag : Flag) (value : String)
  | raise (flag : Flag)
  deriving DecidableEq

namespace Item

/-- The item may stand beside any others: it is a word, or a flag that may be repeated. -/
def isRepeatable : Item → Bool
  | .word _ => true
  | .option flag _ => flag ∈ Flag.repeatable
  | .raise _ => false

/-- The value that the item gives a flag. -/
def value? (flag : Flag) : Item → Option String
  | .option other value => if other = flag then some value else none
  | _ => none

/-- The values that items give a flag, in order. -/
def values (flag : Flag) (items : List Item) : List String := items.filterMap (value? flag)

/-- The further words among items. -/
def words (items : List Item) : List String :=
  items.filterMap fun
    | .word text => some text
    | _ => none

theorem words_cons (item : Item) (rest : List Item) :
    words (item :: rest) = words [item] ++ words rest := by
  rw [words, words, words, ← List.filterMap_append]
  rfl

end Item

namespace Level

/-- The level with an item read, if there is room for a word and the value fits its flag. -/
def take (name : CommandName) (level : Level) : Item → Except UsageError Level
  | .word text =>
    if level.words.length < name.maxWords then level.addWord name text
    else .error (surplusWord name false text)
  | .option flag value => level.setFlag flag value
  | .raise flag => level.raiseFlag name flag

def takeAll (name : CommandName) (level : Level) (items : List Item) : Except UsageError Level :=
  items.foldlM (take name) level

/-- The level that items lead to, if they can be taken. -/
def taken? (name : CommandName) (items : List Item) (level : Level) : Option Level :=
  (level.takeAll name items).toOption

theorem taken?_append (name : CommandName) (items rest : List Item) (level : Level) :
    level.taken? name (items ++ rest) = (level.taken? name items).bind (taken? name rest) := by
  rw [taken?, takeAll, List.foldlM_append, taken?, takeAll]
  cases items.foldlM (take name) level <;> rfl

theorem taken?_singleton (name : CommandName) (item : Item) (level : Level) :
    level.taken? name [item] = (level.take name item).toOption := by
  rw [taken?, takeAll, List.foldlM_cons]
  cases level.take name item <;> rfl

/-- The values of a flag that may be repeated. -/
def gathered (level : Level) : Flag → List String
  | .config => level.fields.config
  | .headers => level.fields.headers
  | .unsetConfig => level.unsetConfig
  | .unsetHeader => level.unsetHeader
  | .env => level.env
  | _ => []

theorem gathered_setFlag {flag other : Flag} (h : flag ∈ Flag.repeatable) {value : String}
    {before after : Level} (hset : before.setFlag other value = .ok after) :
    after.gathered flag =
      before.gathered flag ++ (Item.value? flag (.option other value)).toList := by
  simp only [Flag.repeatable, List.mem_cons, List.not_mem_nil, or_false] at h
  cases other with
  | config | headers | unsetConfig | unsetHeader | env | help | version | verbose | quiet =>
    cases hset
    rcases h with rfl | rfl | rfl | rfl | rfl <;> simp [gathered, Item.value?]
  | apiUrl | memory | type | format | maxConcurrency | timeout | image | method =>
    obtain ⟨value, -, hvalue⟩ := ok_of_bind hset
    cases hvalue
    rcases h with rfl | rfl | rfl | rfl | rfl <;> simp [gathered, Item.value?]

theorem words_setFlag {flag : Flag} {value : String} {before after : Level}
    (hset : before.setFlag flag value = .ok after) : after.words = before.words := by
  cases flag with
  | config | headers | unsetConfig | unsetHeader | env | help | version | verbose | quiet =>
    cases hset
    rfl
  | apiUrl | memory | type | format | maxConcurrency | timeout | image | method =>
    obtain ⟨value, -, hvalue⟩ := ok_of_bind hset
    cases hvalue
    rfl

/-- A flag without a value is counted or noted, and nothing else changes. -/
theorem eq_of_raiseFlag {name : CommandName} {flag : Flag} {before after : Level}
    (hraise : before.raiseFlag name flag = .ok after) :
    ∃ verbose quiet, after = { before with verbose := verbose, quiet := quiet } := by
  cases flag with
  | help | version => cases hraise
  | quiet =>
    rw [raiseFlag] at hraise
    split at hraise
    · cases hraise
    · cases hraise
      exact ⟨before.verbose, true, rfl⟩
  | verbose =>
    cases hraise
    exact ⟨_, before.quiet, rfl⟩
  | _ =>
    cases hraise
    exact ⟨before.verbose, before.quiet, rfl⟩

theorem eq_of_addWord {name : CommandName} {text : String} {before after : Level}
    (hadd : before.addWord name text = .ok after) :
    after = { before with words := before.words ++ [text] } := by
  rw [addWord] at hadd
  split at hadd
  · cases hadd
  · cases hadd
    rfl

theorem words_raiseFlag {name : CommandName} {flag : Flag} {before after : Level}
    (hraise : before.raiseFlag name flag = .ok after) : after.words = before.words := by
  obtain ⟨_, _, rfl⟩ := eq_of_raiseFlag hraise
  rfl

theorem words_addWord {name : CommandName} {text : String} {before after : Level}
    (hadd : before.addWord name text = .ok after) : after.words = before.words ++ [text] := by
  rw [eq_of_addWord hadd]

theorem gathered_raiseFlag {name : CommandName} {other : Flag} {before after : Level}
    (hraise : before.raiseFlag name other = .ok after) (flag : Flag) :
    after.gathered flag = before.gathered flag := by
  obtain ⟨_, _, rfl⟩ := eq_of_raiseFlag hraise
  cases flag <;> rfl

theorem gathered_addWord {name : CommandName} {text : String} {before after : Level}
    (hadd : before.addWord name text = .ok after) (flag : Flag) :
    after.gathered flag = before.gathered flag := by
  rw [eq_of_addWord hadd]
  cases flag <;> rfl

theorem gathered_take {name : CommandName} {flag : Flag} (h : flag ∈ Flag.repeatable) {item : Item}
    {before after : Level} (htake : before.take name item = .ok after) :
    after.gathered flag = before.gathered flag ++ (item.value? flag).toList := by
  cases item with
  | word text =>
    rw [take] at htake
    split at htake
    · exact (gathered_addWord htake flag).trans (List.append_nil _).symm
    · cases htake
  | option other value => exact gathered_setFlag h htake
  | raise other => exact (gathered_raiseFlag htake flag).trans (List.append_nil _).symm

/-- A flag gathers the values of its own items, in their order. -/
theorem gathered_takeAll {name : CommandName} {flag : Flag} (h : flag ∈ Flag.repeatable)
    {items : List Item} {before after : Level} (htake : before.takeAll name items = .ok after) :
    after.gathered flag = before.gathered flag ++ Item.values flag items := by
  induction items generalizing before with
  | nil =>
    cases htake
    exact (List.append_nil _).symm
  | cons item rest ih =>
    rw [takeAll, List.foldlM_cons] at htake
    obtain ⟨middle, hitem, hrest⟩ := ok_of_bind htake
    rw [ih hrest, gathered_take h hitem, List.append_assoc, Item.values, Item.values,
      List.filterMap_cons]
    cases item.value? flag <;> rfl

theorem words_take {name : CommandName} {item : Item} {before after : Level}
    (htake : before.take name item = .ok after) :
    after.words = before.words ++ Item.words [item] := by
  cases item with
  | word text =>
    rw [take] at htake
    split at htake
    · exact words_addWord htake
    · cases htake
  | option flag value => exact (words_setFlag htake).trans (List.append_nil _).symm
  | raise flag => exact (words_raiseFlag htake).trans (List.append_nil _).symm

theorem words_takeAll {name : CommandName} {items : List Item} {before after : Level}
    (htake : before.takeAll name items = .ok after) :
    after.words = before.words ++ Item.words items := by
  induction items generalizing before with
  | nil =>
    cases htake
    exact (List.append_nil _).symm
  | cons item rest ih =>
    rw [takeAll, List.foldlM_cons] at htake
    obtain ⟨middle, hitem, hrest⟩ := ok_of_bind htake
    rw [ih hrest, words_take hitem, List.append_assoc, ← Item.words_cons]

/-- Words for which there is room and flags that may be repeated can always be taken. -/
theorem takeAll_of_repeatable {name : CommandName} (hname : name ≠ .completions)
    {items : List Item} (hitems : ∀ item ∈ items, item.isRepeatable = true) {before : Level}
    (hcount : before.words.length + (Item.words items).length ≤ name.maxWords) :
    ∃ after, before.takeAll name items = .ok after ∧ after.image = before.image := by
  induction items generalizing before with
  | nil => exact ⟨before, rfl, rfl⟩
  | cons item rest ih =>
    obtain ⟨hitem, hrest⟩ := List.forall_mem_cons.mp hitems
    have htaken : ∃ middle, before.take name item = .ok middle ∧ middle.image = before.image := by
      cases item with
      | word text =>
        have hroom : before.words.length < name.maxWords := by
          have hwords : Item.words (.word text :: rest) = text :: Item.words rest := rfl
          rw [hwords, List.length_cons] at hcount
          omega
        rw [take, if_pos hroom, addWord, if_neg (by simp [hname])]
        exact ⟨_, rfl, rfl⟩
      | option flag value =>
        simp only [Item.isRepeatable, Flag.repeatable, List.mem_cons, List.not_mem_nil, or_false,
          decide_eq_true_eq] at hitem
        rcases hitem with rfl | rfl | rfl | rfl | rfl <;> exact ⟨_, rfl, rfl⟩
      | raise flag => cases hitem
    obtain ⟨middle, hmiddle, himage⟩ := htaken
    have hroom : middle.words.length + (Item.words rest).length ≤ name.maxWords := by
      rw [words_take hmiddle, List.length_append]
      rw [Item.words_cons, List.length_append] at hcount
      omega
    obtain ⟨after, hafter, hsame⟩ := ih hrest hroom
    refine ⟨after, ?_, hsame.trans himage⟩
    rw [takeAll, List.foldlM_cons, hmiddle]
    exact hafter

end Level
end AppRoutes.CommandLine
