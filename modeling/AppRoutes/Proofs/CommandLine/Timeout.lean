/-
The timeout on a command line.

The flag may stand once, among any other flags and words.  Its text matters only through the
duration that it is read as, and no other item touches that.
-/
import AppRoutes.Proofs.CommandLine.Update

namespace AppRoutes.CommandLine

namespace Level

/-- A timeout that is set leaves no room for another one. -/
theorem timeout_setFlag {flag : Flag} {value : String} {before after : Level}
    (hset : before.setFlag flag value = .ok after) {d : Duration}
    (h : before.fields.timeout = some d) : after.fields.timeout = some d := by
  cases flag with
  | config | headers | unsetConfig | unsetHeader | env | help | version | verbose | quiet =>
    cases hset
    exact h
  | apiUrl | memory | type | format | maxConcurrency | image | method =>
    obtain ⟨value, -, hvalue⟩ := ok_of_bind hset
    cases hvalue
    exact h
  | timeout =>
    obtain ⟨value, hvalue, -⟩ := ok_of_bind hset
    rw [once, h] at hvalue
    cases hvalue

theorem timeout_take {name : CommandName} {item : Item} {before after : Level}
    (htake : before.take name item = .ok after) {d : Duration}
    (h : before.fields.timeout = some d) : after.fields.timeout = some d := by
  cases item with
  | word text =>
    rw [take] at htake
    split at htake
    · rw [eq_of_addWord htake]
      exact h
    · cases htake
  | option flag value => exact timeout_setFlag htake h
  | raise flag =>
    obtain ⟨_, _, rfl⟩ := eq_of_raiseFlag htake
    exact h

theorem timeout_takeAll {name : CommandName} {items : List Item} {before after : Level}
    (htake : before.takeAll name items = .ok after) {d : Duration}
    (h : before.fields.timeout = some d) : after.fields.timeout = some d := by
  induction items generalizing before with
  | nil =>
    cases htake
    exact h
  | cons item rest ih =>
    rw [takeAll, List.foldlM_cons] at htake
    obtain ⟨middle, hitem, hrest⟩ := ok_of_bind htake
    exact ih hrest (timeout_take hitem h)

/-- A level has the timeout that its flag gives, wherever the flag stands. -/
theorem exists_timeout_of_takeAll {name : CommandName} {front rest : List Item} {text : String}
    {before after : Level}
    (htake : before.takeAll name (front ++ .option .timeout text :: rest) = .ok after) :
    ∃ d, Duration.parse text = .ok d ∧ after.fields.timeout = some d := by
  rw [takeAll, List.foldlM_append] at htake
  obtain ⟨middle, -, htake⟩ := ok_of_bind htake
  rw [List.foldlM_cons] at htake
  obtain ⟨next, hset, hrest⟩ := ok_of_bind htake
  obtain ⟨value, hvalue, hnext⟩ := ok_of_bind hset
  cases hnext
  cases hparse : Duration.parse text with
  | error e =>
    rw [hparse, once] at hvalue
    split at hvalue
    · cases hvalue
    · cases hvalue
  | ok d =>
    rw [hparse, once] at hvalue
    split at hvalue
    · cases hvalue
    · cases hvalue
      exact ⟨d, rfl, timeout_takeAll hrest rfl⟩

/-- Of the text of a timeout only what it is read as counts. -/
theorem taken?_timeout_congr {text other : String}
    (h : Duration.parse text = Duration.parse other) (name : CommandName)
    (front rest : List Item) (level : Level) :
    level.taken? name (front ++ .option .timeout text :: rest) =
      level.taken? name (front ++ .option .timeout other :: rest) := by
  have htake : ∀ level : Level, level.taken? name (.option .timeout text :: rest) =
      level.taken? name (.option .timeout other :: rest) := by
    intro level
    simp only [taken?, takeAll, List.foldlM_cons, take, setFlag, h]
  rw [taken?_append, taken?_append, funext htake]

end Level

/-- Command lines on routes that differ in the text of the timeout alone, and by it in nothing
that counts, come to the same arguments. -/
theorem parse_routes_timeout_congr {text other : String}
    (h : Duration.parse text = Duration.parse other) {name : CommandName}
    (hname : name ∈ CommandName.routes.children) (hleaf : name.children = []) {word : String}
    (hword : word ∈ name.words) {front rest : List Item} {words words' : List String}
    (hwords : Spells name (front ++ .option .timeout text :: rest) words)
    (hwords' : Spells name (front ++ .option .timeout other :: rest) words') :
    (parse ("routes" :: word :: words)).toOption =
      (parse ("routes" :: word :: words')).toOption := by
  rw [parse_routes hname hleaf hword hwords, parse_routes hname hleaf hword hwords',
    Level.taken?_timeout_congr h]

end AppRoutes.CommandLine
