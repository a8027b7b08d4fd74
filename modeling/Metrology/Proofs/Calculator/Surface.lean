import Mathlib.Data.List.Nodup
import Metrology.Calculator.Surface
import Metrology.Proofs.Calculator.Sorting

/-!
# What is found by name

No two features of a module have the same name, so everything that a module lists and has to show
is found under its own name (`Module.feature_of_mem`), and nothing is found but that and what every
module knows without listing it (`Module.exists_feature_iff`).  The names of the public surface are
in alphabetical order (`Module.pairwise_exported`), and the module at the top lists each of them
(`Module.lists_of_mem_exported`).
-/

namespace Metrology.Calculator.Module

variable {m : Module} {f : Feature} {name : String}

/-- In a module without two features of the same name, each is found under its own. -/
theorem feature_of_nodup (hnodup : (m.listedFeatures.map Feature.name).Nodup)
    (hf : f ∈ m.listedFeatures) : m.feature f.name = .ok f := by
  have hfound : m.listedFeatures.find? (fun g => g.name = f.name) = some f := by
    cases hfind : m.listedFeatures.find? fun g => g.name = f.name with
    | none => exact absurd (decide_eq_true rfl) (List.find?_eq_none.mp hfind f hf)
    | some g =>
      have hname : g.name = f.name := by simpa using List.find?_some hfind
      rw [List.inj_on_of_nodup_map hnodup (List.mem_of_find?_eq_some hfind) hf hname]
  rw [feature, feature?, hfound]
  rfl

theorem nodup_listedFeatures :
    ∀ m ∈ [top, units], (m.listedFeatures.map Feature.name).Nodup := by
  decide

/-- Everything that a module lists and has to show is found under its own name. -/
theorem feature_of_mem (hm : m ∈ [top, units]) (hf : f ∈ m.listedFeatures) :
    m.feature f.name = .ok f :=
  feature_of_nodup (nodup_listedFeatures m hm) hf

/-- Nothing is found but what a module lists and what every module knows without listing it. -/
theorem exists_feature_iff : (∃ f, m.feature name = .ok f) ↔
    name ∈ m.listedFeatures.map Feature.name ∨ name ∈ unlistedFeatures.map Prod.fst := by
  have hfound : (∃ f, m.feature name = .ok f) ↔ (m.feature? name).isSome := by
    unfold feature
    cases m.feature? name with
    | some f => exact ⟨fun _ => rfl, fun _ => ⟨f, rfl⟩⟩
    | none =>
      refine ⟨fun ⟨f, hf⟩ => ?_, nofun⟩
      cases hinner : m.submodule? name with
      | some inner =>
        rw [hinner] at hf
        exact nomatch hf
      | none =>
        rw [hinner] at hf
        dsimp only at hf
        split_ifs at hf
  rw [hfound, feature?]
  simp

theorem exported_perm : exported.Perm
    (["DIMENSIONLESS", "__license__", "__version__"] ++ top.features.map Feature.name) :=
  List.mergeSort_perm _ _

theorem pairwise_exported : exported.Pairwise (· ≤ ·) :=
  Value.pairwise_mergeSort_texts _

/-- Every name of the public surface is one that the module at the top lists. -/
theorem lists_of_mem_exported (h : name ∈ exported) : top.lists name = true := by
  rw [exported_perm.mem_iff] at h
  revert name
  decide

end Metrology.Calculator.Module
