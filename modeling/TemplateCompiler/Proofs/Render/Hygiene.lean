import TemplateCompiler.Proofs.Render.Modules
/-!
# Names that are apart

The names of a module have five makers that know nothing of each other: imports, stylesheets, the runtime,
declarations and listeners. All names are apart exactly where no component is imported under the name of a stylesheet
or of a listener, which a component can be.
-/

namespace TemplateCompiler

open Template Render

/-! ## First letters -/

/-- Each of the names starts with one of the letters. -/
def HaveLetters (letters : List Char) (names : List String) : Prop :=
  ∀ name ∈ names, ∃ c ∈ letters, name.toList.head? = some c

theorem HaveLetters.append {letters letters' : List Char} {names names' : List String} (h : HaveLetters letters names)
    (h' : HaveLetters letters' names') : HaveLetters (letters ++ letters') (names ++ names') := by
  intro name hm
  rcases List.mem_append.1 hm with hm | hm
  · obtain ⟨c, hc, hhead⟩ := h name hm
    exact ⟨c, List.mem_append_left _ hc, hhead⟩
  · obtain ⟨c, hc, hhead⟩ := h' name hm
    exact ⟨c, List.mem_append_right _ hc, hhead⟩

theorem HaveLetters.disjoint {letters letters' : List Char} {names names' : List String} (h : HaveLetters letters names)
    (h' : HaveLetters letters' names') (hd : ∀ c ∈ letters, c ∉ letters') : names.Disjoint names' := by
  intro name hm hm'
  obtain ⟨c, hc, hhead⟩ := h name hm
  obtain ⟨c', hc', hhead'⟩ := h' name hm'
  obtain rfl := Option.some.inj (hhead.symm.trans hhead')
  exact hd c hc hc'

namespace Render

theorem HoistTable.Sound.haveLetters {table : HoistTable} (hs : table.Sound) : HaveLetters ['s', '$'] table.names := by
  intro name hm
  obtain ⟨kind, hhead⟩ := hs.head?_name hm
  exact ⟨kind.letter, by cases kind <;> simp [HoistKind.letter], hhead⟩

theorem haveLetters_localNames (helpers : List Helper) : HaveLetters ['a'] (helpers.map Helper.localName) := by
  intro name hm
  obtain ⟨helper, -, rfl⟩ := List.mem_map.1 hm
  exact ⟨'a', by simp, helper.head?_localName⟩

namespace RenderModule

/-! ## Names of a module -/

/-- The names that components are imported under. -/
def importNames (m : RenderModule) : List String :=
  m.imports.map Scoping.Import.local

/-- The names that are declared beside the render function, and its own name. -/
def declaredNames (m : RenderModule) : List String :=
  m.importNames ++ m.stylesheetNames ++ (m.runtimeNames ++ m.hoists.names ++ ["tmpl"])

/-- The names of the memoized listeners. -/
def memoNames (m : RenderModule) : List String :=
  (List.range m.memos).map memoName

/-- The names that are declared in the render function. -/
def localNames (m : RenderModule) : List String :=
  m.helpers.map Helper.localName ++ m.memoNames

/-- No name is declared twice beside the render function, and none is declared again in it. -/
structure NamesApart (m : RenderModule) : Prop where
  declared : m.declaredNames.Nodup
  unhidden : ∀ name ∈ m.localNames, name ∉ m.declaredNames

theorem nodup_stylesheetNames (m : RenderModule) : m.stylesheetNames.Nodup :=
  List.nodup_range.map fun _ _ => append_toString_injective

theorem haveLetters_stylesheetNames (m : RenderModule) : HaveLetters ['_'] m.stylesheetNames := by
  intro name hm
  obtain ⟨n, -, rfl⟩ := List.mem_map.1 hm
  exact ⟨'_', by simp, by simp [stylesheetName, String.toList_append]⟩

theorem haveLetters_memoNames (m : RenderModule) : HaveLetters ['_'] m.memoNames := by
  intro name hm
  obtain ⟨n, -, rfl⟩ := List.mem_map.1 hm
  exact ⟨'_', by simp, by simp [memoName, String.toList_append]⟩

theorem memoNames_disjoint (m : RenderModule) : m.memoNames.Disjoint m.stylesheetNames := by
  intro name hm hs
  obtain ⟨k, -, rfl⟩ := List.mem_map.1 hm
  obtain ⟨n, -, hn⟩ := List.mem_map.1 hs
  have hsecond := congrArg (fun s : String => s.toList[1]?) hn
  simp [memoName, stylesheetName, String.toList_append] at hsecond

theorem runtimeNames_eq (m : RenderModule) :
    m.runtimeNames = ["parseFragment", "registerTemplate"] ∨ m.runtimeNames = ["registerTemplate"] := by
  unfold runtimeNames
  split
  · exact .inl rfl
  · exact .inr rfl

theorem haveLetters_runtimeNames (m : RenderModule) : HaveLetters ['p', 'r'] m.runtimeNames := by
  rcases m.runtimeNames_eq with h | h <;> rw [h] <;> simp [HaveLetters]

end RenderModule

end Render

/-! ## The letters of all names -/

namespace Template.Fits

variable {t : Template} {m : RenderModule}

theorem importNames_eq (h : t.Fits m) : m.importNames = t.imports.locals := by
  rw [RenderModule.importNames, h.imports]
  rfl

theorem haveLetters_importNames (h : t.Fits m) : HaveLetters ['_'] m.importNames := by
  rw [h.importNames_eq]
  exact fun name hm => ⟨'_', by simp, (Scoping.ImportTable.sound_ofList _).underscore name hm⟩

/-- The other declared names start with other letters. -/
theorem haveLetters_rest (h : t.Fits m) :
    HaveLetters ['p', 'r', 's', '$', 't'] (m.runtimeNames ++ m.hoists.names ++ ["tmpl"]) :=
  (m.haveLetters_runtimeNames.append h.noted.sound.haveLetters).append (by simp [HaveLetters])

theorem nodup_rest (h : t.Fits m) : (m.runtimeNames ++ m.hoists.names ++ ["tmpl"]).Nodup := by
  have hruntime : m.runtimeNames.Nodup := by
    rcases m.runtimeNames_eq with h | h <;> rw [h] <;> decide
  have hletters := h.noted.sound.haveLetters
  have hfront := hruntime.append h.noted.sound.names_nodup
    (m.haveLetters_runtimeNames.disjoint hletters (by simp))
  have hfunction : HaveLetters ['t'] ["tmpl"] := by simp [HaveLetters]
  exact hfront.append (List.nodup_singleton _)
    ((m.haveLetters_runtimeNames.append hletters).disjoint hfunction (by simp))

/-- The names of a module are apart exactly where no component is imported under the name of a stylesheet or of a
listener. -/
theorem namesApart_iff (h : t.Fits m) :
    m.NamesApart ↔ ∀ name ∈ m.importNames, name ∉ m.stylesheetNames ∧ name ∉ m.memoNames := by
  have himports : m.importNames.Nodup := by
    rw [h.importNames_eq]
    exact (Scoping.ImportTable.sound_ofList _).locals_nodup
  constructor
  case mp =>
    intro hapart name hm
    have hfront := (List.nodup_append.1 hapart.declared).1
    refine ⟨fun hs => (List.disjoint_of_nodup_append hfront) hm hs, fun hmemo => ?_⟩
    refine hapart.unhidden name (List.mem_append_right _ hmemo) ?_
    exact List.mem_append_left _ (List.mem_append_left _ hm)
  case mpr =>
    intro hfree
    have hfront : (m.importNames ++ m.stylesheetNames).Nodup :=
      himports.append m.nodup_stylesheetNames fun name hm => (hfree name hm).1
    have hletters := h.haveLetters_importNames.append m.haveLetters_stylesheetNames
    constructor
    case declared => exact hfront.append h.nodup_rest (hletters.disjoint h.haveLetters_rest (by simp))
    case unhidden =>
      intro name hlocal hdeclared
      rcases List.mem_append.1 hlocal with hhelper | hmemo
      · exact (haveLetters_localNames m.helpers).disjoint (hletters.append h.haveLetters_rest) (by simp) hhelper
          hdeclared
      · rcases List.mem_append.1 hdeclared with hdeclared | hdeclared
        · rcases List.mem_append.1 hdeclared with himport | hstylesheet
          · exact (hfree name himport).2 hmemo
          · exact m.memoNames_disjoint hmemo hstylesheet
        · exact m.haveLetters_memoNames.disjoint h.haveLetters_rest (by simp) hmemo hdeclared

end Template.Fits

/-! ## Modules that sources are compiled to -/

/-- Wherever compiling gives code, the names of the module are apart exactly where no component is imported under the
name of a stylesheet or of a listener. -/
theorem compile_namesApart_iff {config : Config} {source code : String} {output : Output}
    (h : compile config source = .ok output) (hcode : output.code = some code) :
    ∃ t m, CompilesTo config source t m ∧ code = m.text ∧
      (m.NamesApart ↔ ∀ name ∈ m.importNames, name ∉ m.stylesheetNames ∧ name ∉ m.memoNames) := by
  obtain ⟨t, m, hm, rfl⟩ := compile_code_iff.1 ⟨output, h, hcode⟩
  exact ⟨t, m, hm, rfl, hm.fits.namesApart_iff⟩

/-- A component beside a stylesheet. -/
theorem compile_namesApart_component :
    ∃ output t m, compile { stylesheets := ["x"] } "<template><x-a></x-a></template>" = .ok output ∧
      CompilesTo { stylesheets := ["x"] } "<template><x-a></x-a></template>" t m ∧ output.code = some m.text ∧
      m.NamesApart := by
  have hnames : (compiled? { stylesheets := ["x"] } "<template><x-a></x-a></template>").map
      (fun result => result.2.importNames.all fun name =>
        !result.2.stylesheetNames.contains name && !result.2.memoNames.contains name) = some true := by decide +kernel
  obtain ⟨t, m, hm, hfree⟩ := exists_compilesTo hnames
  obtain ⟨output, houtput, hcode⟩ := hm.code
  obtain ⟨t', m', hm', hcode', happly⟩ := compile_namesApart_iff houtput hcode
  obtain rfl := Except.ok.inj (hm.parsed.symm.trans hm'.parsed)
  obtain rfl := Except.ok.inj (hm.rendered.symm.trans hm'.rendered)
  exact ⟨output, t, m, houtput, hm, hcode, happly.2 (by simpa using hfree)⟩

/-- A component can be imported under the name of a stylesheet, and another one under the name of a listener. -/
theorem compile_not_namesApart :
    (∃ output t m, compile { stylesheets := ["x"] } "<template><stylesheet-0></stylesheet-0></template>" = .ok output ∧
      CompilesTo { stylesheets := ["x"] } "<template><stylesheet-0></stylesheet-0></template>" t m ∧
      output.code = some m.text ∧ ¬ m.declaredNames.Nodup) ∧
    ∃ output t m, compile {} "<template><m-0></m-0><p onclick={go}></p></template>" = .ok output ∧
      CompilesTo {} "<template><m-0></m-0><p onclick={go}></p></template>" t m ∧ output.code = some m.text ∧
      "_m0" ∈ m.localNames ∧ "_m0" ∈ m.declaredNames := by
  constructor
  · have hnames : (compiled? { stylesheets := ["x"] } "<template><stylesheet-0></stylesheet-0></template>").map
        (fun result => decide result.2.declaredNames.Nodup) = some false := by decide +kernel
    obtain ⟨t, m, hm, htwice⟩ := exists_compilesTo hnames
    obtain ⟨output, houtput, hcode⟩ := hm.code
    exact ⟨output, t, m, houtput, hm, hcode, by simpa using htwice⟩
  · have hnames : (compiled? {} "<template><m-0></m-0><p onclick={go}></p></template>").map
        (fun result => result.2.localNames.contains "_m0" && result.2.declaredNames.contains "_m0") = some true := by
      decide +kernel
    obtain ⟨t, m, hm, hboth⟩ := exists_compilesTo hnames
    obtain ⟨output, houtput, hcode⟩ := hm.code
    exact ⟨output, t, m, houtput, hm, hcode, by simpa using hboth⟩

end TemplateCompiler
