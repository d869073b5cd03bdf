import TemplateCompiler.Proofs.Render.Generated
import TemplateCompiler.Proofs.Render.Total
/-!
# Modules of templates

A source that compiles is that of a template, and the code is the text of its module. The body of the module is what
the nodes of the template are rendered as, and the rest of the module is what the body mentions.
-/

namespace TemplateCompiler

open Template Render
open Scoping (ImportTable)

theorem exists_ofDocument {config : Config} {source : String} {t : Template} (h : Template.parse config source = .ok t) :
    ∃ document, Markup.parse source.toList = .ok document ∧ t = ofDocument config document := by
  unfold Template.parse at h
  cases hparse : Markup.parse source.toList with
  | error e =>
    rw [hparse] at h
    cases h
  | ok document =>
    rw [hparse] at h
    exact ⟨document, rfl, (Except.ok.inj h).symm⟩

/-- The template of a source and its module, if the source has no errors. -/
def compiled? (config : Config) (source : String) : Option (Template × RenderModule) :=
  match Template.parse config source with
  | .ok t => if t.hasErrors then none else (t.renderModule source).toOption.map fun m => (t, m)
  | .error _ => none

/-- The source is one of the template, without errors, and is compiled to the module. -/
structure CompilesTo (config : Config) (source : String) (t : Template) (m : RenderModule) : Prop where
  parsed : Template.parse config source = .ok t
  noErrors : t.hasErrors = false
  rendered : t.renderModule source = .ok m

theorem compiled?_eq_some {config : Config} {source : String} {t : Template} {m : RenderModule}
    (h : compiled? config source = some (t, m)) : CompilesTo config source t m := by
  unfold compiled? at h
  split at h
  · rename_i t' ht
    split at h
    · cases h
    · rename_i herrors
      cases hm : t'.renderModule source with
      | error error =>
        rw [hm] at h
        cases h
      | ok m' =>
        rw [hm] at h
        cases h
        exact ⟨ht, by simpa using herrors, hm⟩
  · cases h

theorem CompilesTo.compiled?_eq {config : Config} {source : String} {t : Template} {m : RenderModule}
    (h : CompilesTo config source t m) : compiled? config source = some (t, m) := by
  unfold compiled?
  rw [h.parsed]
  simp only [h.noErrors, h.rendered]
  rfl

/-- What a source is compiled to, and what can be read off it. -/
theorem exists_compilesTo {α : Type} {config : Config} {source : String} {f : Template × RenderModule → α} {a : α}
    (h : (compiled? config source).map f = some a) : ∃ t m, CompilesTo config source t m ∧ f (t, m) = a := by
  obtain ⟨⟨t, m⟩, hm, rfl⟩ := Option.map_eq_some_iff.1 h
  exact ⟨t, m, compiled?_eq_some hm, rfl⟩

theorem CompilesTo.code {config : Config} {source : String} {t : Template} {m : RenderModule}
    (h : CompilesTo config source t m) :
    ∃ output, compile config source = .ok output ∧ output.code = some m.text := by
  unfold compile
  rw [h.parsed]
  unfold Template.compile
  simp only [h.noErrors, h.rendered]
  exact ⟨_, rfl, rfl⟩

/-- A source has code exactly where it is compiled to a module, and the code is the text of that. -/
theorem compile_code_iff {config : Config} {source code : String} :
    (∃ output, compile config source = .ok output ∧ output.code = some code) ↔
      ∃ t m, CompilesTo config source t m ∧ code = m.text := by
  constructor
  case mp =>
    rintro ⟨output, h, hcode⟩
    unfold compile at h
    split at h
    · rename_i t ht
      obtain ⟨output', hcompile, rfl⟩ : ∃ output', t.compile source = .ok output' ∧ output' = output := by
        cases hc : t.compile source with
        | error error => simp [hc, Except.mapError] at h
        | ok output' => exact ⟨output', rfl, by simpa [hc, Except.mapError] using h⟩
      unfold Template.compile at hcompile
      dsimp only at hcompile
      split at hcompile
      · cases hcompile
        cases hcode
      · rename_i herrors
        cases hm : t.renderModule source with
        | error error =>
          rw [hm] at hcompile
          cases hcompile
        | ok m =>
          rw [hm] at hcompile
          cases hcompile
          exact ⟨t, m, ⟨ht, by simpa using herrors, hm⟩, (Option.some.inj hcode).symm⟩
    · cases h
      cases hcode
    · cases h
  case mpr =>
    rintro ⟨t, m, hm, rfl⟩
    exact hm.code

/-- A module that fits a template: its body is what the nodes are rendered as, and it has exactly what the body
mentions. -/
structure Template.Fits (t : Template) (m : RenderModule) : Prop where
  imports : m.imports = t.imports.entries
  stylesheets : m.stylesheets = t.config.stylesheets
  noted : Noted t.imports.locals m.body.trace ⟨m.helpers, m.hoists, m.memos⟩
  body : ∃ values, NodesRender t.sources m.hoists [] (fun _ => true) t.mark.nodes values ∧
    m.body = arrayOf t.mark.nodes values

theorem Template.fits_of_renderModule {t : Template} {source : String} {m : RenderModule}
    (h : t.renderModule source = .ok m) : t.Fits m := by
  have hstart : Noted t.sources.imports.locals {} {} :=
    .start (Scoping.ImportTable.sound_ofList _).underscore
  have hends := ends_arrayValue hstart t.mark.nodes (@ends_nodeValues t.sources [] (fun _ => true) t.mark.nodes)
  unfold Template.renderModule toModule at h
  cases hrun : (bodyValue ⟨t.analysis, t.mark.table, t.imports⟩ t.mark.nodes).run {} with
  | error error =>
    rw [hrun] at h
    cases h
  | ok result =>
    rw [hrun] at h
    cases h
    have hmade := hends result.1 result.2 hrun
    have hnoted := hmade.noted
    rw [Trace.empty_append] at hnoted
    exact ⟨rfl, rfl, hnoted, hmade.shape _ (.refl _)⟩

theorem CompilesTo.fits {config : Config} {source : String} {t : Template} {m : RenderModule}
    (h : CompilesTo config source t m) : t.Fits m :=
  t.fits_of_renderModule h.rendered

end TemplateCompiler
