import TemplateCompiler.Proofs.Render.Literals
/-!
# Calls for declarations

A module is given its declarations one call at a time. `HoistTable.Records` says what a table knows of all the calls that
have filled it, and `records_hoistAll` shows it of every sequence of calls: equal calls share a name, a name keeps its
content whatever is called for later, and the names of a kind count its contents in the order of their first calls.
-/

namespace TemplateCompiler.Render

/-- What is declared: a content of a kind. -/
def Hoist.call (h : Hoist) : HoistKind × String :=
  (h.kind, h.content)

/-- Calls for declarations, one after the other, and the names that they return. -/
def Emitting.hoistAll (calls : List (HoistKind × String)) : Emitting (List String) :=
  calls.mapM fun call => hoist call.1 call.2

namespace HoistTable

/-- What is declared, in order. -/
def contents (table : HoistTable) : List (HoistKind × String) :=
  table.entries.map Hoist.call

/-- The names of the declarations of a kind, in order. -/
def namesOf (table : HoistTable) (kind : HoistKind) : List String :=
  (table.entries.filter (·.kind == kind)).map Hoist.name

/-- What a name stands for. -/
def denoted? (table : HoistTable) (name : String) : Option (HoistKind × String) :=
  (table.entries.find? (·.name == name)).map Hoist.call

/-- The table knows the calls, which have returned the names. -/
structure Records (table : HoistTable) (calls : List (HoistKind × String)) (names : List String) : Prop where
  returned : names.length = calls.length
  /-- Calls return the same name exactly if they are for the same content of the same kind. -/
  shared : ∀ p ∈ calls.zip names, ∀ q ∈ calls.zip names, p.2 = q.2 ↔ p.1 = q.1
  /-- The declarations stand in the order of their first calls, each of them once. -/
  contents : table.contents = calls.eraseDups
  objects : table.namesOf .object =
    (List.range (table.namesOf .object).length).map fun n => "stc" ++ toString n
  fragments : table.namesOf .fragment =
    (List.range (table.namesOf .fragment).length).map fun n => "$fragment" ++ toString (n + 1)
  hasFragments : table.hasFragments = true ↔ ∃ call ∈ calls, call.1 = .fragment

/-! ## One call -/

theorem find?_eq_none_iff {table : HoistTable} {kind : HoistKind} {content : String} :
    table.find? kind content = none ↔ (kind, content) ∉ table.contents := by
  simp [find?, contents, Hoist.call]

theorem length_namesOf (table : HoistTable) (kind : HoistKind) : (table.namesOf kind).length = table.count kind := by
  rw [namesOf, List.length_map, count, List.countP_eq_length_filter]

/-- A table as the calls fill it: each content has been called for, and the names of a kind are counted. -/
structure Tallies (table : HoistTable) (calls : List (HoistKind × String)) : Prop where
  sound : table.Sound
  contents : table.contents = calls.eraseDups
  counted : ∀ kind, table.namesOf kind = (List.range (table.count kind)).map kind.nameAt

theorem tallies_empty : Tallies {} [] :=
  ⟨sound_empty, rfl, fun _ => rfl⟩

/-- What is called for anew gets the next name of its kind, and the names of the other kind stay as they are. -/
theorem Tallies.insert {table : HoistTable} {calls : List (HoistKind × String)} (h : table.Tallies calls)
    (call : HoistKind × String) : (table.insert call.1 call.2).Tallies (calls ++ [call]) := by
  have hknown : table.find? call.1 call.2 = none ↔ call ∉ calls := by
    rw [find?_eq_none_iff, h.contents, List.mem_eraseDups]
  refine ⟨h.sound.insert call.1 call.2, ?contents, ?counted⟩
  case contents =>
    rw [eraseDups_concat, ← h.contents]
    split
    · rename_i hm
      obtain ⟨found, hfound⟩ := Option.ne_none_iff_exists'.1 (mt hknown.1 (not_not_intro hm))
      rw [insert_eq_self hfound]
    · rename_i hm
      rw [insert_eq_declare (hknown.2 hm)]
      simp [HoistTable.contents, Hoist.call]
  case counted =>
    intro kind
    cases hfind : table.find? call.1 call.2 with
    | some found =>
      rw [insert_eq_self hfind]
      exact h.counted kind
    | none =>
      have hnames := h.counted kind
      rw [namesOf] at hnames
      rw [insert_eq_declare hfind, count_declare, namesOf, entries_declare, List.filter_append, List.map_append, hnames]
      by_cases hkind : call.1 = kind
      · subst hkind
        simp [List.range_succ, nextName_eq, h.sound.counted]
      · simp [hkind]

theorem Sound.denoted? {table : HoistTable} (hs : table.Sound) {kind : HoistKind} {content name : String}
    (h : table.Declares kind content name) : table.denoted? name = some (kind, content) := by
  rw [HoistTable.denoted?, hs.find?_entries h (by simp) fun found hfound => beq_iff_eq.1 hfound]
  rfl

/-- A table has one name for each content. -/
theorem Sound.eq_iff {table : HoistTable} (hs : table.Sound) {k k' : HoistKind} {content content' name name' : String}
    (h : table.Declares k content name) (h' : table.Declares k' content' name') :
    name = name' ↔ (k, content) = (k', content') := by
  constructor
  · rintro rfl
    exact Option.some.inj ((hs.denoted? h).symm.trans (hs.denoted? h'))
  · intro heq
    obtain ⟨rfl, rfl⟩ := Prod.mk.inj heq
    have hfound : table.find? k content = some ⟨k, content, name⟩ := hs.found _ h
    have hfound' : table.find? k content = some ⟨k, content, name'⟩ := hs.found _ h'
    exact congrArg Hoist.name (Option.some.inj (hfound.symm.trans hfound'))

/-! ## Many calls -/

theorem Tallies.records {table : HoistTable} {calls : List (HoistKind × String)} {names : List String}
    (h : table.Tallies calls) (hnames : List.Forall₂ (fun call name => table.Declares call.1 call.2 name) calls names) :
    table.Records calls names := by
  obtain ⟨hlength, hdeclared⟩ := List.forall₂_iff_zip.1 hnames
  have hcounted (kind : HoistKind) :
      table.namesOf kind = (List.range (table.namesOf kind).length).map kind.nameAt := by
    rw [length_namesOf]
    exact h.counted kind
  refine ⟨hlength.symm, ?shared, h.contents, hcounted .object, hcounted .fragment, ?hasFragments⟩
  case shared =>
    intro p hp q hq
    exact h.sound.eq_iff (hdeclared hp) (hdeclared hq)
  case hasFragments =>
    have hany : table.hasFragments = true ↔ ∃ call ∈ table.contents, call.1 = .fragment := by
      simp [h.sound.hasFragments, HoistTable.contents, Hoist.call]
    simp only [hany, h.contents, List.mem_eraseDups]

end HoistTable

namespace Emitting

open HoistTable

theorem run_hoistAll_cons {call : HoistKind × String} {calls : List (HoistKind × String)} {names : List String}
    {e e' : Emission} (h : (hoistAll calls).run { e with hoists := e.hoists.insert call.1 call.2 } = .ok (names, e')) :
    (hoistAll (call :: calls)).run e = .ok (e.hoists.nameFor call.1 call.2 :: names, e') := by
  rw [hoistAll, List.mapM_cons, StateT.run_bind,
    show (hoist call.1 call.2).run e = .ok (e.hoists.nameFor call.1 call.2, _) from rfl]
  show ((hoistAll calls >>= fun names => pure (e.hoists.nameFor call.1 call.2 :: names)).run _) = _
  rw [StateT.run_bind, h]
  rfl

/-- Calls succeed, and what they return is declared under the names that they return. -/
theorem tallies_hoistAll (calls : List (HoistKind × String)) {before : List (HoistKind × String)} {e : Emission}
    (h : e.hoists.Tallies before) :
    ∃ names e', (hoistAll calls).run e = .ok (names, e') ∧ e'.hoists.Tallies (before ++ calls) ∧
      e.hoists.Grows e'.hoists ∧ List.Forall₂ (fun call name => e'.hoists.Declares call.1 call.2 name) calls names := by
  induction calls generalizing before e with
  | nil => exact ⟨[], e, rfl, by rwa [List.append_nil], .refl _, .nil⟩
  | cons call calls ih =>
    obtain ⟨names, e', hrun, htallies, hgrows, hdeclared⟩ :=
      ih (e := { e with hoists := e.hoists.insert call.1 call.2 }) (h.insert call)
    refine ⟨_, e', run_hoistAll_cons hrun, by rwa [List.append_cons], ?_, .cons ?_ hdeclared⟩
    · exact (e.hoists.grows_insert call.1 call.2).trans hgrows
    · exact hgrows.subset (e.hoists.mem_insert call.1 call.2)

/-- A table that is filled from the start knows all calls for declarations, and whatever is called for after them, the
names that they have returned stand for what they were for. -/
theorem records_hoistAll (calls : List (HoistKind × String)) :
    ∃ names e, (hoistAll calls).run {} = .ok (names, e) ∧ e.hoists.Records calls names ∧
      ∀ more, ∃ names' e', (hoistAll more).run e = .ok (names', e') ∧
        ∀ p ∈ calls.zip names, e'.hoists.denoted? p.2 = some p.1 := by
  obtain ⟨names, e, hrun, htallies, -, hdeclared⟩ := tallies_hoistAll calls (e := {}) tallies_empty
  refine ⟨names, e, hrun, htallies.records hdeclared, ?_⟩
  intro more
  obtain ⟨names', e', hrun', htallies', hgrows, -⟩ := tallies_hoistAll more htallies
  refine ⟨names', e', hrun', ?_⟩
  -- Later calls only add declarations, and a name has no other one.
  intro p hp
  have hdeclares : e.hoists.Declares p.1.1 p.1.2 p.2 := (List.forall₂_iff_zip.1 hdeclared).2 hp
  exact htallies'.sound.denoted? (hgrows.subset hdeclares)

example : ((hoistAll [(.object, "a"), (.fragment, "b"), (.object, "c"), (.object, "a")]).run {}).map Prod.fst =
    .ok ["stc0", "$fragment1", "stc1", "stc0"] := by
  decide

end Emitting

end TemplateCompiler.Render
