import Metrology.Proofs.Expression.Lexemes

/-!
# Tokens and the text they are read from

* `Token.Taken`: the tokens that are read from the front of a text, each the longest lexeme behind
  the blanks before it, and what is left.  The function that scans does nothing else
  (`Token.Taken.scanFrom`), and it comes to an end of the text or to a character with which no
  lexeme begins (`Token.exists_taken`).
* `Token.Tiles`: tokens that are where they are said to be, one behind the other, with nothing but
  blanks outside of them (`Token.Taken.tiles`).

The main result is `Token.ofText_lossless`.
-/

namespace Metrology

open Text

namespace Token

variable {position : Nat} {cs gap rest : List Char} {l : Lexeme} {tokens : List Token}

/-- The position behind the last character of a token. -/
def stop (t : Token) : Nat := t.position + t.lexeme.text.length

/-! ### One token after the other -/

/-- Whether tokens are read from the front of a text that begins at the given position, and what is
left of it: each is the longest lexeme behind the blanks before it. -/
inductive Taken : Nat → List Char → List Token → List Char → Prop
  | nil (position : Nat) (cs : List Char) : Taken position cs [] cs
  | cons {position : Nat} {gap cs after rest : List Char} {l : Lexeme} {tokens : List Token}
      (hgap : ∀ c ∈ gap, isBlank c = true) (hl : l.IsLongest cs after)
      (hrest : Taken (position + gap.length + l.text.length) after tokens rest) :
      Taken position (gap ++ cs) (⟨l, position + gap.length⟩ :: tokens) rest

/-- Whether a text begins with a character that is no blank and with which no lexeme begins. -/
def Unreadable : List Char → Prop
  | [] => False
  | c :: after => isBlank c = false ∧ ¬ Lexeme.CanBegin c after

theorem text_ne_nil_of_isLongest (h : l.IsLongest cs rest) : l.text ≠ [] :=
  Lexeme.text_ne_nil_of_scan (Lexeme.scan_eq_some_iff.mpr h)

theorem endsRun_of_isLongest (h : l.IsLongest cs rest) : EndsRun isBlank cs := by
  obtain ⟨c, text, hc⟩ := List.exists_cons_of_ne_nil (text_ne_nil_of_isLongest h)
  have hcs : cs = c :: (text ++ rest) := by rw [h.eq_append, hc, List.cons_append]
  have hbegin : Lexeme.CanBegin c (text ++ rest) :=
    h.wellFormed.canBegin (hcs.symm.trans h.eq_append)
  rw [hcs]
  exact endsRun_cons hbegin.not_blank _

theorem scanFrom_of_blank (hblank : ∀ c ∈ cs, isBlank c = true) (position : Nat) :
    scanFrom position cs = .ok [] := by
  have hdrop : dropBlank cs = [] := List.dropWhile_eq_nil_iff.mpr hblank
  rw [scanFrom, if_pos hdrop]

theorem scanFrom_of_isLongest (hgap : ∀ c ∈ gap, isBlank c = true) (h : l.IsLongest cs rest)
    (position : Nat) : scanFrom position (gap ++ cs) =
      (scanFrom (position + gap.length + l.text.length) rest).map
        (⟨l, position + gap.length⟩ :: ·) := by
  have hends := endsRun_of_isLongest h
  have hne : cs ≠ [] := by
    rw [h.eq_append]
    exact List.append_ne_nil_of_left_ne_nil (text_ne_nil_of_isLongest h) rest
  have hscan := Lexeme.scan_eq_some_iff.mpr h
  rw [scanFrom, dropBlank, dropWhile_append_of_ends hgap hends, takeWhile_append_of_ends hgap hends,
    if_neg hne]
  split
  · rename_i hnone
    cases hnone.symm.trans hscan
  · rename_i l' rest' hsome
    cases hsome.symm.trans hscan
    cases scanFrom (position + gap.length + l.text.length) rest <;> rfl

theorem scanFrom_of_unreadable (hgap : ∀ c ∈ gap, isBlank c = true) (h : Unreadable cs)
    (position : Nat) : scanFrom position (gap ++ cs) =
      .error (.unexpectedCharacter (position + gap.length) (excerpt cs)) := by
  cases cs with
  | nil => exact h.elim
  | cons c after =>
    have hends : EndsRun isBlank (c :: after) := endsRun_cons h.1 _
    have hscan := Lexeme.scan_cons_eq_none_iff.mpr h.2
    rw [scanFrom, dropBlank, dropWhile_append_of_ends hgap hends,
      takeWhile_append_of_ends hgap hends, if_neg (List.cons_ne_nil c after)]
    split
    · rfl
    · rename_i l' rest' hsome
      cases hscan.symm.trans hsome

/-- What has been read is not read again: scanning goes on with what is left. -/
theorem Taken.scanFrom (h : Taken position cs tokens rest) :
    ∃ position', position' + rest.length = position + cs.length ∧
      scanFrom position cs = (scanFrom position' rest).map (tokens ++ ·) := by
  induction h with
  | nil position cs =>
    refine ⟨position, rfl, ?_⟩
    cases Token.scanFrom position cs <;> rfl
  | @cons position gap cs after rest l tokens hgap hl _ ih =>
    obtain ⟨position', hposition, hscan⟩ := ih
    refine ⟨position', ?_, ?_⟩
    · rw [hposition, hl.eq_append]
      simp only [List.length_append]
      omega
    · rw [scanFrom_of_isLongest hgap hl, hscan]
      cases Token.scanFrom position' rest <;> rfl

/-- **Reading comes to an end**: that of the text, or a character that cannot be read. -/
theorem exists_taken (position : Nat) (cs : List Char) :
    ∃ tokens gap tail, Taken position cs tokens (gap ++ tail) ∧
      (∀ c ∈ gap, isBlank c = true) ∧ (tail = [] ∨ Unreadable tail) := by
  have hsplit (cs : List Char) : cs = cs.takeWhile isBlank ++ dropBlank cs :=
    List.takeWhile_append_dropWhile.symm
  have hgap (cs : List Char) : ∀ c ∈ cs.takeWhile isBlank, isBlank c = true :=
    fun _ hc => List.mem_takeWhile_imp hc
  induction position, cs using scanFrom.induct with
  | case1 position cs hblank =>
    refine ⟨[], cs.takeWhile isBlank, [], ?_, hgap cs, .inl rfl⟩
    rw [← hblank, ← hsplit]
    exact .nil position cs
  | case2 position cs hblank hnone =>
    refine ⟨[], cs.takeWhile isBlank, dropBlank cs, ?_, hgap cs, .inr ?_⟩
    · rw [← hsplit]
      exact .nil position cs
    · obtain ⟨c, after, hc⟩ := List.exists_cons_of_ne_nil hblank
      have hends := endsRun_dropWhile isBlank cs
      rw [dropBlank] at hc hnone ⊢
      rw [hc] at hnone hends ⊢
      exact ⟨hends c rfl, Lexeme.scan_cons_eq_none_iff.mp hnone⟩
  | case3 position cs start hblank l rest hsome ih =>
    obtain ⟨tokens, gap, tail, htaken, hgap', hstop⟩ := ih
    refine ⟨⟨l, start⟩ :: tokens, gap, tail, ?_, hgap', hstop⟩
    have hcons := Taken.cons (hgap cs) (Lexeme.scan_eq_some_iff.mp hsome) htaken
    rwa [← hsplit] at hcons

/-- Each token takes a character at least. -/
theorem Taken.length_le (h : Taken position cs tokens rest) :
    tokens.length + rest.length ≤ cs.length := by
  induction h with
  | nil => simp
  | @cons position gap cs after rest l tokens _ hl _ ih =>
    have hpos : 0 < l.text.length := List.length_pos_iff.mpr (text_ne_nil_of_isLongest hl)
    rw [hl.eq_append]
    simp only [List.length_append, List.length_cons]
    omega

/-! ### Positions -/

/-- Whether the tokens of a text have the form of their kinds and are where they are said to be, one
behind the other, with nothing but blanks outside of them. -/
structure Tiles (cs : List Char) (tokens : List Token) : Prop where
  wellFormed : ∀ t ∈ tokens, t.lexeme.WellFormed
  slice : ∀ t ∈ tokens, (cs.drop t.position).take t.lexeme.text.length = t.lexeme.text
  ordered : tokens.Pairwise fun t t' => t.position < t'.position ∧ t.stop ≤ t'.position
  outside : ∀ i c, cs[i]? = some c → (∀ t ∈ tokens, i < t.position ∨ t.stop ≤ i) →
    isBlank c = true

theorem Taken.wellFormed (h : Taken position cs tokens rest) :
    ∀ t ∈ tokens, t.lexeme.WellFormed := by
  induction h with
  | nil => exact fun _ ht => absurd ht List.not_mem_nil
  | cons _ hl _ ih => exact List.forall_mem_cons.mpr ⟨hl.wellFormed, ih⟩

/-- A token stands in the text as far behind its front as its position says. -/
theorem Taken.slice (h : Taken position cs tokens rest) : ∀ t ∈ tokens,
    ∃ i, t.position = position + i ∧ (cs.drop i).take t.lexeme.text.length = t.lexeme.text := by
  induction h with
  | nil => exact fun _ ht => absurd ht List.not_mem_nil
  | @cons position gap cs after rest l tokens _ hl _ ih =>
    intro t ht
    rcases List.mem_cons.mp ht with rfl | ht
    · refine ⟨gap.length, rfl, ?_⟩
      rw [List.drop_left, hl.eq_append, List.take_left]
    · obtain ⟨i, hi, hslice⟩ := ih t ht
      refine ⟨gap.length + (l.text.length + i), by omega, ?_⟩
      rw [← List.drop_drop, List.drop_left, hl.eq_append, ← List.drop_drop, List.drop_left]
      exact hslice

theorem Taken.ordered (h : Taken position cs tokens rest) :
    (∀ t ∈ tokens, position ≤ t.position) ∧
      tokens.Pairwise fun t t' => t.position < t'.position ∧ t.stop ≤ t'.position := by
  induction h with
  | nil => exact ⟨fun _ ht => absurd ht List.not_mem_nil, .nil⟩
  | @cons position gap cs after rest l tokens _ hl _ ih =>
    obtain ⟨hbehind, hordered⟩ := ih
    have hpos : 0 < l.text.length := List.length_pos_iff.mpr (text_ne_nil_of_isLongest hl)
    refine ⟨List.forall_mem_cons.mpr ⟨Nat.le_add_right .., fun t ht => ?_⟩,
      List.pairwise_cons.mpr ⟨fun t ht => ?_, hordered⟩⟩
    · have := hbehind t ht
      omega
    · have := hbehind t ht
      refine ⟨?_, ?_⟩
      · show position + gap.length < t.position
        omega
      · exact this

theorem Taken.outside (h : Taken position cs tokens rest) (hrest : ∀ c ∈ rest, isBlank c = true) :
    ∀ i c, cs[i]? = some c → (∀ t ∈ tokens, position + i < t.position ∨ t.stop ≤ position + i) →
      isBlank c = true := by
  induction h with
  | nil =>
    intro i c hc _
    exact hrest c (List.mem_of_getElem? hc)
  | @cons position gap cs after rest l tokens hgap hl _ ih =>
    intro i c hc hout
    -- Every character is in the gap, in the first token or behind it.
    rw [List.forall_mem_cons] at hout
    obtain ⟨hfirst, hothers⟩ := hout
    change position + i < position + gap.length ∨
      position + gap.length + l.text.length ≤ position + i at hfirst
    by_cases hin : i < gap.length
    · rw [List.getElem?_append_left hin] at hc
      exact hgap c (List.mem_of_getElem? hc)
    · have hbehind : gap.length + l.text.length ≤ i := by omega
      rw [List.getElem?_append_right (by omega), hl.eq_append,
        List.getElem?_append_right (by omega)] at hc
      refine ih hrest _ c hc fun t ht => ?_
      have ht' := hothers t ht
      omega

theorem Taken.tiles (h : Taken 0 cs tokens rest) (hrest : ∀ c ∈ rest, isBlank c = true) :
    Tiles cs tokens where
  wellFormed := h.wellFormed
  slice t ht := by
    obtain ⟨i, hi, hslice⟩ := h.slice t ht
    rwa [hi, Nat.zero_add]
  ordered := h.ordered.2
  outside i c hc hout := h.outside hrest i c hc (by rwa [Nat.zero_add])

/-! ### All tokens of a text -/

theorem scanFrom_eq_ok_iff : scanFrom position cs = .ok tokens ↔
    ∃ gap, Taken position cs tokens gap ∧ ∀ c ∈ gap, isBlank c = true := by
  constructor
  · intro hscan
    obtain ⟨taken, gap, tail, htaken, hgap, htail⟩ := exists_taken position cs
    obtain ⟨position', -, htaken'⟩ := htaken.scanFrom
    rcases htail with rfl | htail
    · rw [List.append_nil] at htaken htaken'
      rw [scanFrom_of_blank hgap, hscan] at htaken'
      have htokens : tokens = taken ++ [] := Except.ok.inj htaken'
      rw [htokens, List.append_nil]
      exact ⟨gap, htaken, hgap⟩
    · rw [scanFrom_of_unreadable hgap htail, hscan] at htaken'
      cases htaken'
  · rintro ⟨gap, htaken, hgap⟩
    obtain ⟨position', -, htaken'⟩ := htaken.scanFrom
    rw [htaken', scanFrom_of_blank hgap]
    exact congrArg Except.ok (List.append_nil tokens)

theorem scanFrom_eq_error_iff {e : Error} : scanFrom position cs = .error e ↔
    ∃ tokens gap tail stop, Taken position cs tokens (gap ++ tail) ∧
      (∀ c ∈ gap, isBlank c = true) ∧ Unreadable tail ∧
      stop + tail.length = position + cs.length ∧ e = .unexpectedCharacter stop (excerpt tail) := by
  constructor
  · intro hscan
    obtain ⟨taken, gap, tail, htaken, hgap, htail⟩ := exists_taken position cs
    obtain ⟨position', hposition, htaken'⟩ := htaken.scanFrom
    rcases htail with rfl | htail
    · rw [List.append_nil, scanFrom_of_blank hgap, hscan] at htaken'
      cases htaken'
    · rw [scanFrom_of_unreadable hgap htail, hscan] at htaken'
      rw [List.length_append] at hposition
      exact ⟨taken, gap, tail, position' + gap.length, htaken, hgap, htail, by omega,
        Except.error.inj htaken'⟩
  · rintro ⟨taken, gap, tail, stop, htaken, hgap, htail, hstop, rfl⟩
    obtain ⟨position', hposition, htaken'⟩ := htaken.scanFrom
    rw [List.length_append] at hposition
    obtain rfl : stop = position' + gap.length := by omega
    rw [htaken', scanFrom_of_unreadable hgap htail]
    rfl

theorem Taken.exists_append (h : Taken position cs tokens rest) :
    ∃ before, cs = before ++ rest := by
  induction h with
  | nil => exact ⟨[], rfl⟩
  | @cons position gap cs after rest l tokens _ hl _ ih =>
    obtain ⟨before, rfl⟩ := ih
    refine ⟨gap ++ (l.text ++ before), ?_⟩
    rw [hl.eq_append, List.append_assoc, List.append_assoc]

/-- **Tokens are a text without its blanks**, each where it is said to be, and scanning fails only
in front of a character that cannot be read. -/
theorem ofText_lossless (text : String) :
    (∀ tokens, ofText text = .ok tokens ↔ ∃ gap, Taken 0 text.toList tokens gap ∧
      ∀ c ∈ gap, isBlank c = true) ∧
    (∀ tokens, ofText text = .ok tokens → Tiles text.toList tokens) ∧
    (∀ e, ofText text = .error e ↔ ∃ tokens before gap c after,
      text.toList = before ++ c :: after ∧ Taken 0 text.toList tokens (gap ++ c :: after) ∧
        (∀ x ∈ gap, isBlank x = true) ∧ isBlank c = false ∧ ¬ Lexeme.CanBegin c after ∧
          e = .unexpectedCharacter before.length (excerpt (c :: after))) ∧
    (∀ tokens rest, Taken 0 text.toList tokens rest →
      tokens.length + rest.length ≤ text.toList.length) ∧
    ∃ tokens gap tail, Taken 0 text.toList tokens (gap ++ tail) ∧
      (∀ c ∈ gap, isBlank c = true) ∧ (tail = [] ∨ Unreadable tail) := by
  refine ⟨fun tokens => scanFrom_eq_ok_iff, fun tokens htokens => ?_, fun e => ?_,
    fun tokens rest htaken => htaken.length_le, exists_taken 0 text.toList⟩
  · obtain ⟨gap, htaken, hgap⟩ := scanFrom_eq_ok_iff.mp htokens
    exact htaken.tiles hgap
  · rw [ofText, scanFrom_eq_error_iff]
    constructor
    · rintro ⟨tokens, gap, tail, stop, htaken, hgap, htail, hstop, rfl⟩
      cases tail with
      | nil => exact htail.elim
      | cons c after =>
        obtain ⟨before, hbefore⟩ := htaken.exists_append
        have htext : text.toList = (before ++ gap) ++ c :: after := by
          rw [List.append_assoc]
          exact hbefore
        have hlength : stop = (before ++ gap).length := by
          rw [htext, List.length_append] at hstop
          omega
        exact ⟨tokens, before ++ gap, gap, c, after, htext, htaken, hgap, htail.1, htail.2,
          by rw [hlength]⟩
    · rintro ⟨tokens, before, gap, c, after, htext, htaken, hgap, hc, hnot, rfl⟩
      refine ⟨tokens, gap, c :: after, before.length, htaken, hgap, ⟨hc, hnot⟩, ?_, rfl⟩
      rw [htext, List.length_append]
      omega

/-- An exponent belongs to its numeral and two stars to one operator; two points are no numeral. -/
theorem ofText_lossless_points :
    (∃ tokens, ofText " 1_0.5ee3ft ** .2" = .ok tokens ∧
      tokens.map stop = [9, 11, 14, 17] ∧ Tiles " 1_0.5ee3ft ** .2".toList tokens) ∧
    ofText "2 ft .. 3" = .error (.unexpectedCharacter 5 ".. 3") := by
  have htokens : ofText " 1_0.5ee3ft ** .2" = .ok
      [⟨.number ⟨['1', '_', '0'], true, ['5'], some ⟨['e', 'e'], [], ['3']⟩⟩, 1⟩,
        ⟨.name ['f', 't'], 9⟩, ⟨.operator .doubleStar, 12⟩,
        ⟨.number ⟨[], true, ['2'], none⟩, 15⟩] := by decide +kernel
  obtain ⟨-, htiles, -⟩ := ofText_lossless " 1_0.5ee3ft ** .2"
  exact ⟨⟨_, htokens, by decide, htiles _ htokens⟩, by decide +kernel⟩

end Token

end Metrology
