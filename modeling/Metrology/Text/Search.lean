/-!
# Searching for a marker

`breakOn marker cs` splits a text at the first place where `marker` stands: what is before it and
what is after it (`eq_append_of_breakOn`). `dropMarker` removes a marker from the front of a text
and `dropLastMarker` from its end.
-/

namespace Metrology.Text

/-- What follows `marker` in a text that begins with it. -/
def dropMarker : List Char → List Char → Option (List Char)
  | [], cs => some cs
  | _ :: _, [] => none
  | m :: marker, c :: cs => if m = c then dropMarker marker cs else none

theorem eq_append_of_dropMarker {marker cs rest : List Char}
    (h : dropMarker marker cs = some rest) : cs = marker ++ rest := by
  fun_induction dropMarker marker cs with
  | case1 cs => simpa using h
  | case2 => simp at h
  | case3 m marker cs ih => simp [ih h]
  | case4 => simp at h

@[simp] theorem dropMarker_append (marker rest : List Char) :
    dropMarker marker (marker ++ rest) = some rest := by
  induction marker with
  | nil => simp [dropMarker]
  | cons m marker ih => simp [dropMarker, ih]

/-- The text before and after the first occurrence of `marker`. -/
def breakOn (marker : List Char) : List Char → Option (List Char × List Char)
  | [] => (dropMarker marker []).map fun rest => ([], rest)
  | c :: cs =>
    match dropMarker marker (c :: cs) with
    | some rest => some ([], rest)
    | none => (breakOn marker cs).map fun (before, rest) => (c :: before, rest)

/-- A text is put together again from the two parts and the marker between them. -/
theorem eq_append_of_breakOn {marker cs before rest : List Char}
    (h : breakOn marker cs = some (before, rest)) : cs = before ++ marker ++ rest := by
  induction cs generalizing before with
  | nil =>
    simp only [breakOn, Option.map_eq_some_iff, Prod.mk.injEq] at h
    obtain ⟨r, hr, rfl, rfl⟩ := h
    simpa using eq_append_of_dropMarker hr
  | cons c cs ih =>
    simp only [breakOn] at h
    split at h
    · rename_i r hr
      simp only [Option.some.injEq, Prod.mk.injEq] at h
      obtain ⟨rfl, rfl⟩ := h
      simpa using eq_append_of_dropMarker hr
    · simp only [Option.map_eq_some_iff, Prod.mk.injEq, Prod.exists] at h
      obtain ⟨b, r, hbr, rfl, rfl⟩ := h
      simp [ih hbr]

/-- What follows a marker that is not empty is shorter than the text. -/
theorem length_lt_of_breakOn {marker cs before rest : List Char} (hm : marker ≠ [])
    (h : breakOn marker cs = some (before, rest)) : rest.length < cs.length := by
  have hlen := congrArg List.length (eq_append_of_breakOn h)
  have := List.length_pos_iff.mpr hm
  simp only [List.length_append] at hlen
  omega

/-- What precedes `marker` in a text that ends with it. -/
def dropLastMarker (marker cs : List Char) : Option (List Char) :=
  (dropMarker marker.reverse cs.reverse).map List.reverse

theorem dropLastMarker_eq_some_iff {marker cs before : List Char} :
    dropLastMarker marker cs = some before ↔ cs = before ++ marker := by
  constructor
  · intro h
    obtain ⟨r, hr, rfl⟩ := Option.map_eq_some_iff.mp h
    have := eq_append_of_dropMarker hr
    rw [← List.reverse_reverse cs, this]
    simp
  · rintro rfl
    simp [dropLastMarker]

end Metrology.Text
