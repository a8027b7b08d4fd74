import Mathlib.Tactic.SplitIfs
import Metrology.Calculator.Setting

/-!
# Settings that are accepted

Settings that are not refused at once always make a dialect, whose markers are the texts that were
given and else the standard ones; a marker is unusable when something else than a text was given for
it.  This is `Request.ofValue_newSettings`.  The markers are filled in one after the other
(`settings_foldl_fill`), and none of them comes out empty, since neither the standard markers nor
the texts that are accepted are.
-/

namespace Metrology

namespace Calculator

namespace Request

/-! ### Markers that are filled in -/

/-- The text that was given for a marker, or else the one that stands there. -/
def textOr (standing : String) : Option Value → String
  | some (.text given) => given
  | _ => standing

theorem settings_withMarker (m : Markers) (setting marker : String) :
    (withMarker m setting marker).settings =
      m.settings.map fun s => (s.1, if s.1 = setting then marker else s.2) := by
  unfold withMarker
  split <;> simp_all [Markers.settings, eq_comm]

theorem settings_fill (m : Markers) (s : String × Value) :
    (fill m s).settings =
      m.settings.map fun e => (e.1, if e.1 = s.1 then textOr e.2 (some s.2) else e.2) := by
  obtain ⟨setting, v⟩ := s
  cases v with
  | text marker => exact settings_withMarker m setting marker
  | _ => simp [fill, textOr]

/-- Each marker is replaced by what was given for it. -/
theorem settings_foldl_fill {given : List (String × Value)} (hgiven : (given.map Prod.fst).Nodup)
    (m : Markers) :
    (given.foldl fill m).settings =
      m.settings.map fun s => (s.1, textOr s.2 (given.lookup s.1)) := by
  induction given generalizing m with
  | nil => simp [textOr]
  | cons e given ih =>
    obtain ⟨hfresh, hgiven⟩ := List.nodup_cons.mp hgiven
    rw [List.foldl_cons, ih hgiven, settings_fill, List.map_map]
    refine List.map_congr_left fun s _ => ?_
    obtain ⟨setting, v⟩ := e
    by_cases hs : s.1 = setting
    · have hrest : given.lookup setting = none := by
        rw [List.lookup_eq_none_iff]
        intro e he
        rw [bne_iff_ne]
        intro heq
        have hmem : e.1 ∈ given.map Prod.fst := List.mem_map_of_mem he
        exact hfresh (heq ▸ hmem)
      simp only [Function.comp_apply, hs, if_true, hrest, List.lookup_cons_self, textOr]
    · simp only [Function.comp_apply, if_neg hs, List.lookup_cons, beq_false_of_ne hs]

theorem map_fst_filled (given : List (String × Value)) :
    (Value.filled given).map Prod.fst = Dialect.settingNames := by
  rw [Value.filled, List.map_map]
  rfl

theorem zip_filled (given : List (String × Value)) :
    Dialect.settingNames.zip ((Value.filled given).map Prod.snd) = Value.filled given := by
  rw [← map_fst_filled given]
  exact List.zip_unzip (Value.filled given)

theorem lookup_filled (given : List (String × Value)) {s : String × String}
    (hs : s ∈ Markers.settings {}) :
    (Value.filled given).lookup s.1 = some ((given.lookup s.1).getD (.text s.2)) := by
  simp only [Markers.settings, List.mem_cons, List.not_mem_nil, or_false] at hs
  rcases hs with rfl | rfl | rfl | rfl | rfl | rfl | rfl | rfl | rfl <;> rfl

theorem mem_filled (given : List (String × Value)) {s : String × String}
    (hs : s ∈ Markers.settings {}) :
    (s.1, (given.lookup s.1).getD (.text s.2)) ∈ Value.filled given :=
  List.mem_map.mpr ⟨(s.1, .text s.2), List.mem_append_left _ (List.mem_map_of_mem hs), rfl⟩

theorem textOr_some_getD (standing : String) (given : Option Value) :
    textOr standing (some (given.getD (.text standing))) = textOr standing given := by
  cases given <;> rfl

/-- The markers of accepted settings. -/
theorem settings_filled (given : List (String × Value)) :
    ((Value.filled given).foldl fill {}).settings =
      (Markers.settings {}).map fun s => (s.1, textOr s.2 (given.lookup s.1)) := by
  rw [settings_foldl_fill]
  · refine List.map_congr_left fun s hs => ?_
    rw [lookup_filled given hs, textOr_some_getD]
  · rw [map_fst_filled]
    decide

theorem newSettings_eq_ok {given : List (String × Value)} {v : Value}
    (h : Value.newSettings given = .ok v) :
    v = .settings ((Value.filled given).map Prod.snd) ∧
      ∀ s ∈ Value.filled given, s.2.equal (.text "") = false := by
  unfold Value.newSettings at h
  split_ifs at h
  split at h
  · exact nomatch h
  · next hfound =>
    refine ⟨(Except.ok.inj h).symm, fun s hs => ?_⟩
    simpa using List.find?_eq_none.mp hfound s hs

theorem ofMarkers_of_forall_ne {m : Markers} (h : ∀ s ∈ m.settings, s.2 ≠ "")
    (numericDefinitions plurals : Bool) :
    Dialect.ofMarkers m numericDefinitions plurals = .ok ⟨m, numericDefinitions, plurals, h⟩ := by
  unfold Dialect.ofMarkers
  split
  · next s hfound =>
    have hempty : s.2 = "" := by simpa using List.find?_some hfound
    exact absurd hempty (h s (List.mem_of_find?_eq_some hfound))
  · rfl

theorem isUnusable_iff {name : String} (hname : name ∈ (Markers.settings {}).map Prod.fst)
    {v : Value} : isUnusable (name, v) = true ↔ ∀ text, v ≠ .text text := by
  have hswitch : name ∉ Dialect.switches := by
    revert name
    decide
  cases v with
  | text t => simp [isUnusable]
  | _ => simp [isUnusable, hswitch]

theorem isUnusable_of_mem_switches {name : String} (hname : name ∈ Dialect.switches) (v : Value) :
    isUnusable (name, v) = false := by
  cases v with
  | text t => rfl
  | _ => simp [isUnusable, hname]

/-- A marker is unusable where something else than a text was given for it. -/
theorem mem_unusable_iff {given : List (String × Value)} {name : String} :
    name ∈ ((Value.filled given).filter isUnusable).map Prod.fst ↔
      name ∈ (Markers.settings {}).map Prod.fst ∧
        ∃ v, given.lookup name = some v ∧ ∀ text, v ≠ .text text := by
  constructor
  · intro h
    obtain ⟨⟨_, v⟩, hmem, rfl⟩ := List.mem_map.mp h
    obtain ⟨hmem, hunusable⟩ := List.mem_filter.mp hmem
    obtain ⟨s, hs, heq⟩ := List.mem_map.mp hmem
    obtain ⟨rfl, rfl⟩ := Prod.mk.injEq .. ▸ heq
    rcases List.mem_append.mp hs with hmarker | hswitch
    · obtain ⟨m, hm, rfl⟩ := List.mem_map.mp hmarker
      have hname : m.1 ∈ (Markers.settings {}).map Prod.fst := List.mem_map_of_mem hm
      rw [isUnusable_iff hname] at hunusable
      refine ⟨hname, ?_⟩
      dsimp only at hunusable
      cases hgiven : given.lookup m.1 with
      | none =>
        rw [hgiven] at hunusable
        exact absurd rfl (hunusable m.2)
      | some v =>
        rw [hgiven] at hunusable
        exact ⟨v, rfl, hunusable⟩
    · obtain ⟨switch, hname, rfl⟩ := List.mem_map.mp hswitch
      exact absurd hunusable (by rw [isUnusable_of_mem_switches hname]; exact Bool.false_ne_true)
  · rintro ⟨hname, v, hgiven, hv⟩
    obtain ⟨m, hm, rfl⟩ := List.mem_map.mp hname
    have hmem := mem_filled given hm
    rw [hgiven] at hmem
    exact List.mem_map_of_mem (List.mem_filter.mpr ⟨hmem, (isUnusable_iff hname).mpr hv⟩)

/-- No marker of accepted settings is empty. -/
theorem settings_ne_empty {given : List (String × Value)}
    (h : ∀ s ∈ Value.filled given, s.2.equal (.text "") = false) :
    ∀ s ∈ ((Value.filled given).foldl fill {}).settings, s.2 ≠ "" := by
  rw [settings_filled, List.forall_mem_map]
  intro s hs
  have hvalue := h _ (mem_filled given hs)
  cases hgiven : given.lookup s.1 with
  | none => exact Dialect.standard.complete s hs
  | some v =>
    rw [hgiven] at hvalue
    cases v with
    | text t =>
      have hne : t ≠ "" := by simpa [Value.equal] using hvalue
      exact hne
    | _ => exact Dialect.standard.complete s hs

/-- A switch is on unless something untrue was given for it. -/
def isOn (name : String) (given : List (String × Value)) : Bool :=
  ((given.lookup name).getD (.truth true)).isTrue

/-- **Accepted settings make a dialect**: settings that are not refused at once stand for a request,
whose markers are the texts that were given and else the standard ones.  Its markers are unusable
where something else than a text was given. -/
theorem ofValue_newSettings {given : List (String × Value)} {v : Value}
    (h : Value.newSettings given = .ok v) :
    ∃ r, ofValue v = .ok r ∧ r.isForeign = false ∧
      r.dialect.markers.settings =
        (Markers.settings {}).map (fun s => (s.1, textOr s.2 (given.lookup s.1))) ∧
      r.dialect.numericDefinitions = isOn "numeric_definitions" given ∧
      r.dialect.plurals = isOn "plurals" given ∧
      ∀ name, name ∈ r.unusable ↔ name ∈ (Markers.settings {}).map Prod.fst ∧
        ∃ w, given.lookup name = some w ∧ ∀ text, w ≠ .text text := by
  obtain ⟨rfl, hfilled⟩ := newSettings_eq_ok h
  have hrequest : ofValue (.settings ((Value.filled given).map Prod.snd)) = .ok
      ⟨⟨(Value.filled given).foldl fill {}, isOn "numeric_definitions" given,
        isOn "plurals" given, settings_ne_empty hfilled⟩,
      ((Value.filled given).filter isUnusable).map Prod.fst, false⟩ := by
    rw [ofValue, zip_filled, ofMarkers_of_forall_ne (settings_ne_empty hfilled)]
    rfl
  exact ⟨_, hrequest, rfl, settings_filled given, rfl, rfl, fun name => mem_unusable_iff⟩

end Request

end Calculator

end Metrology
