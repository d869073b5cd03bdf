import Mathlib.Data.List.Induction
import Mathlib.Data.List.Nodup
import Mathlib.Data.List.Perm.Subperm
import TemplateCompiler.Render.Emission
import TemplateCompiler.Scoping.Resolve
/-!
# Names that are made up

A render module makes up names for its declarations, its imports and its memoized listeners. Each maker keeps its own
names apart: declarations and listeners by counting (`HoistTable.Sound`), imports by looking for a name that is not
taken (`ImportTable.Sound`).
-/

namespace TemplateCompiler

open TemplateCompiler.Text

/-! ## Numbered names -/

theorem toString_injective {m n : Nat} (h : toString m = toString n) : m = n := by
  have hdigits : Nat.toDigits 10 m = Nat.toDigits 10 n := by
    simpa only [Nat.toString_eq_ofList_toDigits, String.ofList_inj] using h
  calc m = Nat.ofDigitChars 10 (Nat.toDigits 10 m) 0 := Nat.ofDigitChars_ten_toDigits.symm
    _ = Nat.ofDigitChars 10 (Nat.toDigits 10 n) 0 := by rw [hdigits]
    _ = n := Nat.ofDigitChars_ten_toDigits

theorem append_toString_injective {base : String} {m n : Nat} (h : base ++ toString m = base ++ toString n) : m = n :=
  toString_injective ((String.append_right_inj base).1 h)

namespace Render

theorem eraseDups_concat {α : Type} [BEq α] [LawfulBEq α] (xs : List α) (x : α) :
    (xs ++ [x]).eraseDups = if x ∈ xs then xs.eraseDups else xs.eraseDups ++ [x] := by
  rw [List.eraseDups_append]
  split
  · rename_i h
    simp [List.removeAll, h]
  · rename_i h
    simp [List.removeAll, h, List.eraseDups_cons]

theorem memoName_injective {m n : Nat} (h : memoName m = memoName n) : m = n :=
  append_toString_injective h

/-- The name of the declaration of the given kind that `n` of its kind stand before. -/
def HoistKind.nameAt : HoistKind → Nat → String
  | .object, n => "stc" ++ toString n
  | .fragment, n => "$fragment" ++ toString (n + 1)

/-- The letter that the names of declarations of a kind start with. -/
def HoistKind.letter : HoistKind → Char
  | .object => 's'
  | .fragment => '$'

theorem HoistKind.head?_nameAt (kind : HoistKind) (n : Nat) : (kind.nameAt n).toList.head? = some kind.letter := by
  cases kind <;> simp [nameAt, letter, String.toList_append]

theorem HoistKind.nameAt_injective {k k' : HoistKind} {m n : Nat} (h : k.nameAt m = k'.nameAt n) : k = k' ∧ m = n := by
  have hletter : k.letter = k'.letter := by
    have hhead := congrArg (fun s : String => s.toList.head?) h
    simpa [HoistKind.head?_nameAt] using hhead
  cases k <;> cases k'
  case object.object => exact ⟨rfl, append_toString_injective h⟩
  case fragment.fragment => exact ⟨rfl, by simpa using append_toString_injective h⟩
  all_goals cases hletter

/-! ## Declarations -/

namespace HoistTable

/-- The names of the declarations, in order. -/
def names (table : HoistTable) : List String :=
  table.entries.map Hoist.name

/-- The number of declarations of a kind. -/
def count (table : HoistTable) (kind : HoistKind) : Nat :=
  table.entries.countP (·.kind == kind)

/-- The counter of a kind. -/
def counter (table : HoistTable) : HoistKind → Nat
  | .object => table.objects
  | .fragment => table.fragments

theorem nextName_eq (table : HoistTable) (kind : HoistKind) : table.nextName kind = kind.nameAt (table.counter kind) := by
  cases kind <;> rfl

/-- A table as it is filled: its counters count the declarations, and these have different names, each with a number
below that of the next one of its kind, and different contents. -/
structure Sound (table : HoistTable) : Prop where
  counted : ∀ kind, table.counter kind = table.count kind
  names_nodup : table.names.Nodup
  numbered : ∀ h ∈ table.entries, ∃ n < table.count h.kind, h.name = h.kind.nameAt n
  found : ∀ h ∈ table.entries, table.find? h.kind h.content = some h

theorem sound_empty : Sound {} :=
  ⟨fun kind => by cases kind <;> rfl, .nil, by simp, by simp⟩

/-- The counter of the fragments tells whether there are any. -/
theorem Sound.hasFragments {table : HoistTable} (hs : table.Sound) :
    table.hasFragments = true ↔ ∃ h ∈ table.entries, h.kind = .fragment := by
  have hcounted : table.fragments = table.count .fragment := hs.counted .fragment
  simp [HoistTable.hasFragments, hcounted, count, List.countP_pos_iff]

/-- Every declaration of one table stands in another one, and the other one only adds declarations behind them. -/
def Grows (table table' : HoistTable) : Prop :=
  table.entries <+: table'.entries

theorem Grows.refl (table : HoistTable) : table.Grows table :=
  List.prefix_rfl

theorem Grows.trans {t t' t'' : HoistTable} (h : t.Grows t') (h' : t'.Grows t'') : t.Grows t'' :=
  List.IsPrefix.trans h h'

theorem grows_insert (table : HoistTable) (kind : HoistKind) (content : String) :
    table.Grows (table.insert kind content) := by
  unfold insert Grows
  split
  · exact List.prefix_rfl
  · rw [entries_declare]
    exact List.prefix_append _ _

theorem count_declare (table : HoistTable) (kind k : HoistKind) (content : String) :
    (table.declare kind content).count k = table.count k + if kind = k then 1 else 0 := by
  simp [count, List.countP_append]

theorem counter_declare (table : HoistTable) (kind k : HoistKind) (content : String) :
    (table.declare kind content).counter k = table.counter k + if kind = k then 1 else 0 := by
  cases kind <;> cases k <;> rfl

theorem insert_eq_self {table : HoistTable} {kind : HoistKind} {content : String} {h : Hoist}
    (hfind : table.find? kind content = some h) : table.insert kind content = table := by
  simp [insert, hfind]

theorem insert_eq_declare {table : HoistTable} {kind : HoistKind} {content : String}
    (hfind : table.find? kind content = none) : table.insert kind content = table.declare kind content := by
  simp [insert, hfind]

theorem Sound.nextName_not_mem {table : HoistTable} (hs : table.Sound) (kind : HoistKind) :
    table.nextName kind ∉ table.names := by
  intro hm
  obtain ⟨h, hh, heq⟩ := List.mem_map.1 hm
  obtain ⟨n, hn, hname⟩ := hs.numbered h hh
  rw [table.nextName_eq, hs.counted, hname] at heq
  obtain ⟨rfl, rfl⟩ := HoistKind.nameAt_injective heq
  exact Nat.lt_irrefl _ hn

theorem Sound.insert {table : HoistTable} (hs : table.Sound) (kind : HoistKind) (content : String) :
    (table.insert kind content).Sound := by
  cases hfind : table.find? kind content with
  | some h => rwa [insert_eq_self hfind]
  | none =>
    rw [insert_eq_declare hfind]
    refine ⟨?counted, ?names, ?numbered, ?found⟩
    case counted =>
      intro k
      rw [counter_declare, count_declare, hs.counted]
    case names =>
      rw [names, entries_declare, List.map_append, List.map_singleton, List.nodup_append]
      refine ⟨hs.names_nodup, List.nodup_singleton _, fun a ha b hb => ?_⟩
      rw [List.mem_singleton.1 hb]
      rintro rfl
      exact hs.nextName_not_mem kind ha
    case numbered =>
      intro h hh
      rw [entries_declare] at hh
      rw [count_declare]
      rcases List.mem_append.1 hh with hh | hh
      · obtain ⟨n, hn, hname⟩ := hs.numbered h hh
        exact ⟨n, by omega, hname⟩
      · rw [List.mem_singleton.1 hh]
        exact ⟨table.count kind, by simp, by rw [table.nextName_eq, hs.counted]⟩
    case found =>
      intro h hh
      rw [entries_declare] at hh
      unfold find?
      rw [entries_declare, List.find?_append]
      rcases List.mem_append.1 hh with hh | hh
      · rw [show table.entries.find? _ = some h from hs.found h hh]
        rfl
      · rw [List.mem_singleton.1 hh, show table.entries.find? _ = none from hfind]
        simp

theorem Sound.head?_name {table : HoistTable} (hs : table.Sound) {name : String} (hm : name ∈ table.names) :
    ∃ kind : HoistKind, name.toList.head? = some kind.letter := by
  obtain ⟨h, hh, rfl⟩ := List.mem_map.1 hm
  obtain ⟨n, -, hname⟩ := hs.numbered h hh
  exact ⟨h.kind, by rw [hname, HoistKind.head?_nameAt]⟩

theorem find?_mem {table : HoistTable} {kind : HoistKind} {content : String} {h : Hoist}
    (hfind : table.find? kind content = some h) : h ∈ table.entries ∧ h.kind = kind ∧ h.content = content := by
  have hkey := List.find?_some hfind
  simp only [Bool.and_eq_true, beq_iff_eq] at hkey
  exact ⟨List.mem_of_find?_eq_some hfind, hkey⟩

/-- What is inserted is declared under the name that it is given. -/
theorem mem_insert (table : HoistTable) (kind : HoistKind) (content : String) :
    ⟨kind, content, table.nameFor kind content⟩ ∈ (table.insert kind content).entries := by
  unfold nameFor
  cases hfind : table.find? kind content with
  | some h =>
    obtain ⟨hm, rfl, rfl⟩ := find?_mem hfind
    rw [insert_eq_self hfind]
    exact hm
  | none => simp [insert_eq_declare hfind]

/-- A name is noted at its first use only. -/
theorem Sound.names_insert {table : HoistTable} (hs : table.Sound) (kind : HoistKind) (content : String) :
    (table.insert kind content).names =
      if table.nameFor kind content ∈ table.names then table.names
      else table.names ++ [table.nameFor kind content] := by
  unfold nameFor
  cases hfind : table.find? kind content with
  | some h =>
    have hm : h.name ∈ table.names := List.mem_map_of_mem (find?_mem hfind).1
    rw [insert_eq_self hfind]
    simp [hm]
  | none =>
    rw [insert_eq_declare hfind]
    simp [names, show table.nextName kind ∉ table.entries.map Hoist.name from hs.nextName_not_mem kind]

end HoistTable

end Render

/-! ## Imports -/

namespace Scoping

theorem freshName_not_mem (base : String) (taken : List String) : freshName base taken ∉ taken := by
  unfold freshName
  dsimp only
  generalize hnumbered : (List.range taken.length).map (fun n => base ++ toString (n + 1)) = numbered
  have hnodup : (base :: numbered).Nodup := by
    subst hnumbered
    refine List.nodup_cons.2 ⟨fun hm => ?_, ?_⟩
    · obtain ⟨n, -, hn⟩ := List.mem_map.1 hm
      have hlength := congrArg String.length hn
      simp [String.length_append] at hlength
    · refine List.nodup_range.map fun m n h => ?_
      simpa using append_toString_injective h
  cases hfind : (base :: numbered).find? fun name => !taken.contains name with
  | some name =>
    simpa using List.find?_some hfind
  | none =>
    -- Otherwise all candidates are taken, and there are more of them than taken names.
    have hall : ∀ name ∈ base :: numbered, name ∈ taken := by
      simpa using List.find?_eq_none.1 hfind
    have hle := (hnodup.subperm hall).length_le
    rw [List.length_cons, ← hnumbered, List.length_map, List.length_range] at hle
    omega

theorem head?_suggestedName (tag : String) : (suggestedName tag).toList.head? = some '_' := by
  unfold suggestedName
  dsimp only
  split
  · simp [String.toList_append]
  · simp [String.toList_append, identifierChar]

/-- What is new is at most a number behind the name. -/
theorem freshName_cases (base : String) (taken : List String) :
    freshName base taken = base ∨ ∃ n : Nat, freshName base taken = base ++ toString n := by
  unfold freshName
  dsimp only
  cases hfind : List.find? _ _ with
  | none => exact .inl rfl
  | some name =>
    rcases List.mem_cons.1 (List.mem_of_find?_eq_some hfind) with rfl | hm
    · exact .inl rfl
    · obtain ⟨n, -, rfl⟩ := List.mem_map.1 hm
      exact .inr ⟨n + 1, rfl⟩

theorem head?_freshName {base : String} {c : Char} (h : base.toList.head? = some c) (taken : List String) :
    (freshName base taken).toList.head? = some c := by
  rcases freshName_cases base taken with heq | ⟨n, heq⟩
  · rw [heq, h]
  · rw [heq, String.toList_append, List.head?_append, h]
    rfl

namespace ImportTable

/-- The names that the components of a table are imported under, in order. -/
def locals (table : ImportTable) : List String :=
  table.entries.map Import.local

theorem find?_eq_none_iff {table : ImportTable} {tag : String} :
    table.find? tag = none ↔ tag ∉ table.entries.map Import.tag := by
  simp [find?]

theorem insert_known {table : ImportTable} {tag : String} {entry : Import} (h : table.find? tag = some entry) :
    table.insert tag = table ∧ table.entryFor tag = entry := by
  simp [insert, entryFor, h]

/-- A tag that is new gets an import behind all others. -/
theorem insert_new {table : ImportTable} {tag : String} (h : table.find? tag = none) :
    table.insert tag = ⟨table.entries ++ [table.entryFor tag]⟩ ∧
      table.entryFor tag = ⟨tag, freshName (suggestedName tag) table.locals, modulePath tag⟩ := by
  simp [insert, entryFor, h, locals]

theorem tags_insert (table : ImportTable) (tag : String) : (table.insert tag).entries.map Import.tag =
    if tag ∈ table.entries.map Import.tag then table.entries.map Import.tag
    else table.entries.map Import.tag ++ [tag] := by
  cases hfind : table.find? tag with
  | some entry =>
    have hm : tag ∈ table.entries.map Import.tag := by
      by_contra hnew
      rw [find?_eq_none_iff.2 hnew] at hfind
      cases hfind
    rw [(insert_known hfind).1, if_pos hm]
  | none =>
    obtain ⟨hinsert, hentry⟩ := insert_new hfind
    rw [hinsert, if_neg (find?_eq_none_iff.1 hfind), List.map_append, hentry]
    rfl

theorem ofList_concat (tags : List String) (tag : String) : ofList (tags ++ [tag]) = (ofList tags).insert tag :=
  List.foldl_concat ..

/-- The imports of a table stand in the order in which their tags came first. -/
theorem tags_ofList (tags : List String) : (ofList tags).entries.map Import.tag = tags.eraseDups := by
  induction tags using List.reverseRecOn with
  | nil => rfl
  | append_singleton tags tag ih =>
    rw [ofList_concat, tags_insert, ih, Render.eraseDups_concat]
    simp only [List.mem_eraseDups]

/-- Each of the tags that a table is made of has an import, and no other tag has. -/
theorem isSome_local?_ofList {tags : List String} {tag : String} :
    ((ofList tags).local? tag).isSome = true ↔ tag ∈ tags := by
  rw [local?, Option.isSome_map, Option.isSome_iff_ne_none, ne_eq, find?_eq_none_iff, tags_ofList,
    List.mem_eraseDups, not_not]

/-- A table as it is filled: the tags differ, and so do the names, which all start with an underscore. -/
structure Sound (table : ImportTable) : Prop where
  tags_nodup : (table.entries.map Import.tag).Nodup
  locals_nodup : table.locals.Nodup
  underscore : ∀ name ∈ table.locals, name.toList.head? = some '_'

theorem Sound.insert {table : ImportTable} (hs : table.Sound) (tag : String) : (table.insert tag).Sound := by
  cases hfind : table.find? tag with
  | some entry => rwa [(insert_known hfind).1]
  | none =>
    obtain ⟨hinsert, hentry⟩ := insert_new hfind
    rw [hinsert, hentry]
    refine ⟨?tags, ?locals, ?underscore⟩
    case tags =>
      have htag := find?_eq_none_iff.1 hfind
      simpa [List.nodup_append] using ⟨hs.tags_nodup, by simpa using htag⟩
    case locals =>
      have hfresh := freshName_not_mem (suggestedName tag) table.locals
      simpa [locals, List.nodup_append] using ⟨hs.locals_nodup, by simpa [locals] using hfresh⟩
    case underscore =>
      intro name hm
      rw [locals, List.map_append, List.mem_append] at hm
      rcases hm with hm | hm
      · exact hs.underscore name hm
      · rw [List.map_singleton, List.mem_singleton] at hm
        rw [hm]
        exact head?_freshName (head?_suggestedName tag) _

theorem sound_ofList (tags : List String) : (ofList tags).Sound := by
  induction tags using List.reverseRecOn with
  | nil => exact ⟨.nil, .nil, by simp [ofList, locals]⟩
  | append_singleton tags tag ih =>
    rw [ofList_concat]
    exact ih.insert tag

/-- An import is found by its tag. -/
theorem Sound.find? {table : ImportTable} (hs : table.Sound) {entry : Import} (hm : entry ∈ table.entries) :
    table.find? entry.tag = some entry := by
  obtain ⟨before, after, hsplit⟩ := List.append_of_mem hm
  have hnodup := hs.tags_nodup
  rw [hsplit, List.map_append, List.map_cons, List.nodup_append] at hnodup
  have hbefore : ∀ e ∈ before, ¬ (e.tag == entry.tag) = true := by
    intro e he heq
    exact hnodup.2.2 e.tag (List.mem_map_of_mem he) entry.tag List.mem_cons_self (by simpa using heq)
  unfold ImportTable.find?
  rw [hsplit, List.find?_append, List.find?_eq_none.2 hbefore]
  simp

/-- Each import of a table has one of the tags that the table is made of. -/
theorem tag_mem_of_mem_ofList {tags : List String} {entry : Import} (hm : entry ∈ (ofList tags).entries) :
    entry.tag ∈ tags := by
  have htag := List.mem_map_of_mem (f := Import.tag) hm
  rwa [tags_ofList, List.mem_eraseDups] at htag

end ImportTable

end Scoping

end TemplateCompiler
