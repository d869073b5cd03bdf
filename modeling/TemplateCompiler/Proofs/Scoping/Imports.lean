import TemplateCompiler.Proofs.Render.VariableNames
/-!
# Imports over a whole run

Components are imported one tag after the other. `ImportTable.Records` says what a table knows of all the tags that have
been registered in it, and `records_ofList` shows it of every sequence of tags. A new tag gets the name that it suggests,
or that name with a number behind it: `Search` is the loop that looks for the number, and `search_iff` says that it ends
and where.
-/

namespace TemplateCompiler.Scoping

open Text (isIdentifierName)

/-! ## The search for a name -/

/-- The loop that looks for a name that is not taken. It keeps the name that it is at if that is not taken, and goes on to
`base` with the suffix otherwise. -/
inductive Search (base : String) (taken : List String) : String → Nat → String → Prop where
  | found {name : String} {suffix : Nat} (free : name ∉ taken) : Search base taken name suffix name
  | next {name result : String} {suffix : Nat} (used : name ∈ taken)
      (more : Search base taken (base ++ toString suffix) (suffix + 1) result) : Search base taken name suffix result

theorem Search.unique {base name result result' : String} {taken : List String} {suffix : Nat}
    (h : Search base taken name suffix result) (h' : Search base taken name suffix result') : result = result' := by
  induction h with
  | found free =>
    cases h' with
    | found => rfl
    | next used => exact absurd used free
  | next used more ih =>
    cases h' with
    | found free => exact absurd used free
    | next _ more' => exact ih more'

/-- The name that the loop is at after the given number of steps. -/
def candidate (base : String) : Nat → String
  | 0 => base
  | n + 1 => base ++ toString (n + 1)

/-- The name is the first candidate that is not taken. -/
theorem exists_candidate (base : String) (taken : List String) :
    ∃ n, freshName base taken = candidate base n ∧ ∀ i < n, candidate base i ∈ taken := by
  have hcandidates : base :: (List.range taken.length).map (fun n => base ++ toString (n + 1)) =
      (List.range (taken.length + 1)).map (candidate base) := by
    rw [List.range_succ_eq_map, List.map_cons, List.map_map]
    rfl
  unfold freshName
  dsimp only
  rw [hcandidates, List.find?_map]
  cases hfind : (List.range (taken.length + 1)).find? _ with
  | none => exact ⟨0, rfl, by simp⟩
  | some n =>
    obtain ⟨-, -, hbefore⟩ := List.find?_range_eq_some.1 hfind
    refine ⟨n, rfl, ?_⟩
    intro i hi
    simpa using hbefore i hi

/-- From any taken candidate before the first free one, the loop gets to that. -/
theorem search_candidate {base : String} {taken : List String} (steps : Nat) {i : Nat}
    (hused : ∀ j < i + steps, candidate base j ∈ taken) (hfree : candidate base (i + steps) ∉ taken) :
    Search base taken (candidate base i) (i + 1) (candidate base (i + steps)) := by
  induction steps generalizing i with
  | zero => exact .found hfree
  | succ steps ih =>
    rw [show i + (steps + 1) = i + 1 + steps by omega] at hused hfree ⊢
    exact .next (hused i (by omega)) (ih hused hfree)

/-- The loop ends, and it ends with a name that is not taken. -/
theorem search_iff {base name : String} {taken : List String} :
    Search base taken base 1 name ↔ name = freshName base taken := by
  have hsearch : Search base taken base 1 (freshName base taken) := by
    obtain ⟨n, hname, hused⟩ := exists_candidate base taken
    have hfree := freshName_not_mem base taken
    rw [hname] at hfree ⊢
    have hrun := @search_candidate base taken n 0
    rw [Nat.zero_add] at hrun
    exact hrun hused hfree
  constructor
  · intro h
    exact h.unique hsearch
  · rintro rfl
    exact hsearch

namespace ImportTable

/-! ## One tag -/

/-- An import stays the same when other tags are registered. -/
theorem find?_insert_of_some {table : ImportTable} {tag : String} {entry : Import} (h : table.find? tag = some entry)
    (other : String) : (table.insert other).find? tag = some entry := by
  cases hother : table.find? other with
  | some found => rwa [(insert_known hother).1]
  | none =>
    rw [(insert_new hother).1]
    unfold find? at h ⊢
    rw [List.find?_append, h]
    rfl

/-! ## Many tags -/

/-- The table knows the tags that have been registered. -/
structure Records (table : ImportTable) (tags : List String) : Prop where
  /-- The imports stand in the order in which their tags are registered first, each of them once. -/
  order : table.entries.map Import.tag = tags.eraseDups
  identifiers : ∀ entry ∈ table.entries, isIdentifierName entry.local = true
  /-- Imports of different tags have different names. -/
  apart : ∀ entry ∈ table.entries, ∀ entry' ∈ table.entries, entry.tag ≠ entry'.tag → entry.local ≠ entry'.local
  /-- A tag that is registered again gets its import, and changes nothing. -/
  again : ∀ tag ∈ tags, table.find? tag = some (table.entryFor tag) ∧ table.insert tag = table
  /-- A tag that is new gets an import behind the others. The search for its name ends, with the name that it gets. -/
  anew : ∀ tag ∉ tags, (table.insert tag).entries = table.entries ++ [table.entryFor tag] ∧
    (table.entryFor tag).tag = tag ∧
    ∀ name, Search (suggestedName tag) table.locals (suggestedName tag) 1 name ↔ name = (table.entryFor tag).local
  /-- The tags that have a name are those that have been registered. -/
  named : ∀ tag, (table.local? tag).isSome = true ↔ tag ∈ tags

/-- A name is not changed by tags that are registered later. -/
theorem local?_ofList_append {tags : List String} {tag name : String} (h : (ofList tags).local? tag = some name)
    (more : List String) : (ofList (tags ++ more)).local? tag = some name := by
  obtain ⟨entry, hentry, rfl⟩ := Option.map_eq_some_iff.1 h
  refine Option.map_eq_some_iff.2 ⟨entry, ?_, rfl⟩
  induction more using List.reverseRecOn with
  | nil => rwa [List.append_nil]
  | append_singleton more other ih =>
    rw [← List.append_assoc, ofList_concat]
    exact find?_insert_of_some ih other

/-- A table knows all tags that have been registered in it, and the name of an import stays whatever is registered
later. -/
theorem records_ofList (tags : List String) :
    (ofList tags).Records tags ∧ ∀ tag name, (ofList tags).local? tag = some name →
      ∀ more, (ofList (tags ++ more)).local? tag = some name := by
  have hsound := sound_ofList tags
  have htags := tags_ofList tags
  have hnew {tag : String} : (ofList tags).find? tag = none ↔ tag ∉ tags := by
    rw [find?_eq_none_iff, htags, List.mem_eraseDups]
  refine ⟨⟨htags, ?identifiers, ?apart, ?again, ?anew, ?named⟩, fun tag name => local?_ofList_append⟩
  case identifiers =>
    intro entry hentry
    exact isIdentifierName_locals_ofList tags _ (List.mem_map_of_mem hentry)
  case apart =>
    intro entry hentry entry' hentry' hne heq
    have hsame : entry = entry' := List.inj_on_of_nodup_map hsound.locals_nodup hentry hentry' heq
    exact hne (congrArg Import.tag hsame)
  case again =>
    intro tag htag
    obtain ⟨entry, hentry⟩ := Option.ne_none_iff_exists'.1 (mt hnew.1 (not_not_intro htag))
    obtain ⟨hinsert, heq⟩ := insert_known hentry
    exact ⟨heq ▸ hentry, hinsert⟩
  case anew =>
    intro tag htag
    obtain ⟨hinsert, hentry⟩ := insert_new (hnew.2 htag)
    refine ⟨congrArg entries hinsert, by rw [hentry], ?_⟩
    intro name
    rw [search_iff, hentry]
  case named =>
    intro tag
    exact isSome_local?_ofList

example : (ofList ["x-foo-bar", "x-foo--bar", "x-foo-bar1"]).locals = ["_xFooBar", "_xFooBar1", "_xFooBar11"] := by
  decide

end ImportTable

end TemplateCompiler.Scoping
