import Metrology.Calculator.Setting
import Metrology.Proofs.Database.Comments

/-!
# Settings that cannot be used

A marker for which something else than a text was given does no harm until it is looked for.

* `Request.source_congr`: what is in its place does not count, for nothing is read behind the place
  where it is looked for.  Before that place, dialects that differ in such markers only leave the
  same of each line (`Dialect.carried_take_congr`) and so make the same records of the lines
  (`Record.records_congr`).
* `Request.source_reads`: so a database that is read to its end is read as in every dialect with
  the usable markers, and of any other the first records have been read.
* `Request.source_of_unusable_eq_nil`: where every marker can be used, a database is read as in the
  dialect that was asked for.
-/

namespace Metrology

namespace Dialect

open Calculator

/-- Two dialects that differ at most in the markers of the given settings. -/
structure DifferWithin (names : List String) (d d' : Dialect) : Prop where
  markers : ∀ name ∉ names, d.markers.settings.lookup name = d'.markers.settings.lookup name
  numericDefinitions : d.numericDefinitions = d'.numericDefinitions
  plurals : d.plurals = d'.plurals

variable {d d' : Dialect} {names : List String}

/-! ### Lines without comments -/

theorem commentStart_congr (hcomment : d.markers.comment = d'.markers.comment)
    (hopen : d.markers.blockOpen = d'.markers.blockOpen) (cs : List Char) :
    d.commentStart cs = d'.commentStart cs := by
  rw [commentStart, commentStart, hcomment, hopen]

theorem stripComments_congr (hcomment : d.markers.comment = d'.markers.comment)
    (hopen : d.markers.blockOpen = d'.markers.blockOpen)
    (hclose : d.markers.blockClose = d'.markers.blockClose) :
    d.stripComments = d'.stripComments := by
  funext inBlock cs
  induction inBlock, cs using stripComments.induct d with
  | case1 inBlock => rw [stripComments_nil, stripComments_nil]
  | case2 cs hne hbreak =>
    rw [stripComments_of_unclosed hne hbreak, stripComments_of_unclosed hne (hclose ▸ hbreak)]
  | case3 cs hne before after hbreak rest isOpen hrest ih =>
    rw [stripComments_of_closed hne hbreak, stripComments_of_closed hne (hclose ▸ hbreak), ih]
  | case4 inBlock cs hne hblock hstart =>
    rw [Bool.not_eq_true] at hblock
    rw [hblock, stripComments_of_none hne hstart, stripComments_of_none hne]
    rwa [← commentStart_congr hcomment hopen]
  | case5 inBlock cs hne hblock before hstart =>
    rw [Bool.not_eq_true] at hblock
    rw [hblock, stripComments_of_line hne hstart, stripComments_of_line hne]
    rwa [← commentStart_congr hcomment hopen]
  | case6 inBlock cs hne hblock before after hstart rest isOpen hrest ih =>
    rw [Bool.not_eq_true] at hblock
    have hstart' := commentStart_congr hcomment hopen cs ▸ hstart
    rw [hblock, stripComments_of_block hne hstart, stripComments_of_block hne hstart', ih]

theorem linesBeforeClose?_congr (hcomment : d.markers.comment = d'.markers.comment)
    (hopen : d.markers.blockOpen = d'.markers.blockOpen) (inBlock : Bool)
    (raws : List (List Char)) :
    Request.linesBeforeClose? d inBlock raws = Request.linesBeforeClose? d' inBlock raws := by
  induction raws generalizing inBlock with
  | nil => rfl
  | cons raw rest ih =>
    cases inBlock with
    | true => rw [Request.linesBeforeClose?, Request.linesBeforeClose?, ih]
    | false =>
      simp only [Request.linesBeforeClose?, commentStart_congr hcomment hopen raw, ih]

/-- Nothing is looked for on a line without text. -/
theorem carried_of_forall_eq_nil (d : Dialect) (inBlock : Bool) {raws : List (List Char)}
    (h : ∀ raw ∈ raws, raw = []) :
    carried d.stripComments inBlock raws = raws.map fun _ => ([], inBlock) := by
  induction raws with
  | nil => rfl
  | cons raw rest ih =>
    obtain ⟨rfl, hrest⟩ := List.forall_mem_cons.mp h
    rw [carried, stripComments_nil, ih hrest, List.map_cons]

/-- On a line before the first one on which the end of a block is looked for, it does not count what
would end one. -/
theorem stripComments_of_linesBeforeClose? (hcomment : d.markers.comment = d'.markers.comment)
    (hopen : d.markers.blockOpen = d'.markers.blockOpen) {n : Nat} {inBlock : Bool}
    {raw : List Char} {rest : List (List Char)}
    (hn : ∀ k ∈ Request.linesBeforeClose? d inBlock (raw :: rest), n + 1 ≤ k) :
    d.stripComments inBlock raw = d'.stripComments inBlock raw ∧
      ∀ k ∈ Request.linesBeforeClose? d (d.stripComments inBlock raw).2 rest, n ≤ k := by
  have hbehind {isOpen : Bool}
      (h : ∀ k ∈ (Request.linesBeforeClose? d isOpen rest).map (· + 1), n + 1 ≤ k) :
      ∀ k ∈ Request.linesBeforeClose? d isOpen rest, n ≤ k :=
    fun k hk => Nat.le_of_succ_le_succ (h (k + 1) (Option.mem_map_of_mem _ hk))
  rcases eq_or_ne raw [] with rfl | hne
  · rw [stripComments_nil, stripComments_nil]
    refine ⟨rfl, hbehind ?_⟩
    cases inBlock with
    | true => rwa [Request.linesBeforeClose?, if_pos List.isEmpty_nil] at hn
    | false => rwa [Request.linesBeforeClose?, commentStart_nil] at hn
  cases inBlock with
  | true =>
    rw [Request.linesBeforeClose?, if_neg (by simpa using hne)] at hn
    exact absurd (hn 0 rfl) (Nat.not_succ_le_zero n)
  | false =>
    rw [Request.linesBeforeClose?] at hn
    cases hstart : d.commentStart raw with
    | none =>
      rw [hstart] at hn
      rw [stripComments_of_none hne hstart,
        stripComments_of_none hne (commentStart_congr hcomment hopen raw ▸ hstart)]
      exact ⟨rfl, hbehind hn⟩
    | line before =>
      rw [hstart] at hn
      rw [stripComments_of_line hne hstart,
        stripComments_of_line hne (commentStart_congr hcomment hopen raw ▸ hstart)]
      exact ⟨rfl, hbehind hn⟩
    | block before after =>
      rw [hstart] at hn
      rcases eq_or_ne after [] with rfl | hafter
      · rw [stripComments_of_block hne hstart,
          stripComments_of_block hne (commentStart_congr hcomment hopen raw ▸ hstart),
          stripComments_nil, stripComments_nil]
        exact ⟨rfl, hbehind hn⟩
      · dsimp only at hn
        rw [if_neg (by simpa using hafter)] at hn
        exact absurd (hn 0 rfl) (Nat.not_succ_le_zero n)

/-- Before the first line on which the end of a block is looked for, it does not count what would
end one. -/
theorem carried_take_congr (hcomment : d.markers.comment = d'.markers.comment)
    (hopen : d.markers.blockOpen = d'.markers.blockOpen) {n : Nat} {inBlock : Bool}
    {raws : List (List Char)} (hn : ∀ k ∈ Request.linesBeforeClose? d inBlock raws, n ≤ k) :
    carried d.stripComments inBlock (raws.take n) =
      carried d'.stripComments inBlock (raws.take n) := by
  induction raws generalizing n inBlock with
  | nil => rw [List.take_nil, carried, carried]
  | cons raw rest ih =>
    cases n with
    | zero => rw [List.take_zero, carried, carried]
    | succ n =>
      -- The line leaves the same in both dialects, and the end of a block is looked for behind it.
      obtain ⟨hstrip, hrest⟩ : d.stripComments inBlock raw = d'.stripComments inBlock raw ∧
          ∀ k ∈ Request.linesBeforeClose? d (d.stripComments inBlock raw).2 rest, n ≤ k :=
        stripComments_of_linesBeforeClose? hcomment hopen hn
      rw [List.take_succ_cons, carried, carried, ← hstrip, ih hrest]

end Dialect

namespace Record

open Text Dialect

variable {d d' : Dialect} {number start : Nat} {inBlock : Bool} {pending raws : List (List Char)}

/-! ### Records of the lines -/

/-- What is left of the lines settles the records, those that end on the lines and the last one. -/
theorem records_congr (hcontinuation : d.markers.continuation = d'.markers.continuation)
    (h : carried d.stripComments inBlock raws = carried d'.stripComments inBlock raws) :
    ofLines d number inBlock start pending raws = ofLines d' number inBlock start pending raws ∧
      ended d number inBlock start pending raws = ended d' number inBlock start pending raws := by
  induction raws generalizing number inBlock start pending with
  | nil => exact ⟨rfl, rfl⟩
  | cons raw rest ih =>
    rw [carried, carried, List.cons.injEq] at h
    obtain ⟨hraw, hrest⟩ := h
    rw [← hraw] at hrest
    rw [ofLines, ofLines, ended, ended, ← hraw, ← hcontinuation]
    dsimp only
    cases dropLastMarker d.markers.continuation.toList
        (trimBlank (d.stripComments inBlock raw).1) with
    | some kept => exact ih hrest
    | none => exact ⟨congrArg _ (ih hrest).1, congrArg _ (ih hrest).2⟩

/-- The records that end on the first lines are the first of all records. -/
theorem ended_take_isPrefix (d : Dialect) (number : Nat) (inBlock : Bool) (start : Nat)
    (pending raws : List (List Char)) (n : Nat) :
    ended d number inBlock start pending (raws.take n) <+:
      ofLines d number inBlock start pending raws := by
  induction raws generalizing number inBlock start pending n with
  | nil =>
    rw [List.take_nil]
    exact List.nil_prefix
  | cons raw rest ih =>
    cases n with
    | zero => exact List.nil_prefix
    | succ n =>
      rw [List.take_succ_cons, ended, ofLines]
      dsimp only
      cases dropLastMarker d.markers.continuation.toList
          (trimBlank (d.stripComments inBlock raw).1) with
      | some kept => exact ih _ _ _ _ _
      | none => exact (List.prefix_append_right_inj _).mpr (ih _ _ _ _ _)

end Record

namespace Reader

open Dialect

variable {d d' : Dialect} {names : List String}

theorem feed_congr (h : DifferWithin names d d')
    (hnames : ∀ name ∈ Calculator.Request.recordMarkers, name ∉ names) : feed d = feed d' := by
  simp only [Calculator.Request.recordMarkers, List.forall_mem_cons] at hnames
  obtain ⟨hprimitive, hderived, hstandalone, hfactor, hquantity, -⟩ := hnames
  have hrecord (record : List Char) :
      Declaration.ofRecord? d record = Declaration.ofRecord? d' record := by
    have heq₁ : d.markers.primitive = d'.markers.primitive :=
      Option.some.inj (h.markers _ hprimitive)
    have heq₂ : d.markers.derived = d'.markers.derived := Option.some.inj (h.markers _ hderived)
    have heq₃ : d.markers.standalone = d'.markers.standalone :=
      Option.some.inj (h.markers _ hstandalone)
    have heq₄ : d.markers.factor = d'.markers.factor := Option.some.inj (h.markers _ hfactor)
    have heq₅ : d.markers.quantity = d'.markers.quantity := Option.some.inj (h.markers _ hquantity)
    rw [Declaration.ofRecord?, Declaration.ofRecord?, heq₁, heq₂, heq₃, heq₄, heq₅]
  have happly (minted : Nat) (declaration : Declaration) :
      declaration.apply d minted = declaration.apply d' minted := by
    cases declaration with
    | derived names body => rw [Declaration.apply, Declaration.apply, h.numericDefinitions]
    | _ => rfl
  funext r record
  rw [feed, feed, hrecord]
  simp only [happly]

end Reader

namespace Calculator

namespace Request

open Dialect Text

variable {r : Request} {d : Dialect} {raws : List (List Char)} {n : Nat}

/-! ### Reading with what stands in for a marker -/

/-- The request with another dialect, which may have anything for the markers that cannot be
used. -/
def withDialect (r : Request) (d : Dialect) : Request := { r with dialect := d }

@[simp] theorem dialect_withDialect (r : Request) (d : Dialect) : (r.withDialect d).dialect = d :=
  rfl

@[simp] theorem isForeign_withDialect (r : Request) (d : Dialect) :
    (r.withDialect d).isForeign = r.isForeign :=
  rfl

@[simp] theorem lacks_withDialect (r : Request) (d : Dialect) :
    (r.withDialect d).lacks = r.lacks :=
  rfl

@[simp] theorem failure_withDialect (r : Request) (d : Dialect) :
    (r.withDialect d).failure = r.failure :=
  rfl

theorem lacks_eq_false_iff {names : List String} :
    r.lacks names = false ↔ ∀ name ∈ names, name ∉ r.unusable := by
  simp [lacks]

/-- The markers of comments are the same where they can be used. -/
theorem comment_eq (h : DifferWithin r.unusable r.dialect d)
    (hlacks : r.lacks ["comment", "block_comment_open"] = false) :
    r.dialect.markers.comment = d.markers.comment ∧
      r.dialect.markers.blockOpen = d.markers.blockOpen := by
  simp only [lacks_eq_false_iff, List.forall_mem_cons] at hlacks
  obtain ⟨hcomment, hopen, -⟩ := hlacks
  exact ⟨Option.some.inj (h.markers _ hcomment), Option.some.inj (h.markers _ hopen)⟩

theorem continuation_eq (h : DifferWithin r.unusable r.dialect d) (hraws : raws ≠ [])
    (hn : r.readable? raws ≠ some 0) :
    r.dialect.markers.continuation = d.markers.continuation := by
  cases hlacks : r.lacks ["continuation"] with
  | true =>
    refine absurd ?_ hn
    rw [readable?, if_neg (by simpa using hraws), hlacks, Bool.or_true, if_pos rfl]
  | false =>
    exact Option.some.inj
      (h.markers _ (lacks_eq_false_iff.mp hlacks _ (List.mem_singleton_self _)))

theorem readable?_congr (h : DifferWithin r.unusable r.dialect d) (raws : List (List Char)) :
    (r.withDialect d).readable? raws = r.readable? raws := by
  cases hlacks : r.lacks ["comment", "block_comment_open"] with
  | true => simp only [readable?, isForeign_withDialect, lacks_withDialect, hlacks, if_true]
  | false =>
    obtain ⟨hcomment, hopen⟩ := comment_eq h hlacks
    rw [readable?, readable?, dialect_withDialect, ← linesBeforeClose?_congr hcomment hopen]
    rfl

theorem eq_nil_of_mem_take (hn : ∀ k ∈ raws.findIdx? fun line => !line.isEmpty, n ≤ k)
    {raw : List Char} (hraw : raw ∈ raws.take n) : raw = [] := by
  obtain ⟨i, hi, rfl⟩ := List.mem_take_iff_getElem.mp hraw
  cases hfound : raws.findIdx? fun line => !line.isEmpty with
  | none => simpa using List.findIdx?_eq_none_iff.mp hfound raws[i] (List.getElem_mem _)
  | some k =>
    obtain ⟨hk, -, hbefore⟩ := List.findIdx?_eq_some_iff_getElem.mp hfound
    have hik : i < k := by
      have := hn k hfound
      omega
    simpa using hbefore i hik

/-- The lines that can be read leave the same without their comments. -/
theorem carried_congr (h : DifferWithin r.unusable r.dialect d)
    (hn : ∀ k ∈ r.readable? raws, n ≤ k) :
    carried r.dialect.stripComments false (raws.take n) =
      carried d.stripComments false (raws.take n) := by
  rw [readable?] at hn
  split_ifs at hn with hraws hforeign hopen hclose
  · rw [List.isEmpty_iff.mp hraws, List.take_nil, carried, carried]
  · rw [Nat.le_zero.mp (hn 0 rfl), List.take_zero, carried, carried]
  · have hempty : ∀ raw ∈ raws.take n, raw = [] := fun raw hraw => eq_nil_of_mem_take hn hraw
    rw [carried_of_forall_eq_nil _ _ hempty, carried_of_forall_eq_nil _ _ hempty]
  · rw [Bool.not_eq_true] at hopen
    obtain ⟨hcomment, hopen⟩ := comment_eq h hopen
    exact carried_take_congr hcomment hopen hn
  · rw [Bool.not_eq_true] at hopen hclose
    obtain ⟨hcomment, hopen⟩ := comment_eq h hopen
    have hclose' : r.dialect.markers.blockClose = d.markers.blockClose :=
      Option.some.inj (h.markers _ (lacks_eq_false_iff.mp hclose _ (List.mem_singleton_self _)))
    rw [stripComments_congr hcomment hopen hclose']

/-- The records of a database that can be read are the same. -/
theorem ofText_congr (h : DifferWithin r.unusable r.dialect d) {text : String}
    (hreadable : r.readable? (lines text.toList) = none) :
    Record.ofText d text = Record.ofText r.dialect text := by
  have hcarried := carried_congr h (n := (lines text.toList).length) (fun k hk => by
    rw [hreadable] at hk
    cases hk)
  rw [List.take_length] at hcarried
  rcases eq_or_ne (lines text.toList) [] with hlines | hlines
  · rw [Record.ofText, Record.ofText, hlines]
    rfl
  · have hcontinuation := continuation_eq h hlines (by rw [hreadable]; rintro ⟨⟩)
    exact (Record.records_congr hcontinuation hcarried).1.symm

/-- The records that end before something is looked for that cannot be found are the same. -/
theorem ended_take_congr (h : DifferWithin r.unusable r.dialect d)
    (hreadable : r.readable? raws = some n) :
    Record.ended d 1 false 0 [] (raws.take n) =
      Record.ended r.dialect 1 false 0 [] (raws.take n) := by
  have hcarried := carried_congr h (n := n) (fun k hk => by
    rw [hreadable] at hk
    exact (Option.some.inj hk).le)
  cases n with
  | zero => rw [List.take_zero, Record.ended, Record.ended]
  | succ n =>
    have hraws : raws ≠ [] := by
      rintro rfl
      exact nomatch hreadable
    have hcontinuation := continuation_eq h hraws (by rw [hreadable]; simp)
    exact (Record.records_congr hcontinuation hcarried).2.symm

/-- The text that is read of a value; what is no text has none. -/
def written : Value → String
  | .text text => text
  | _ => ""

theorem trim_empty : trim "" = "" :=
  trim_eq_empty_iff.mpr fun _ hc => nomatch hc

/-- Nothing is looked for in a blank text. -/
theorem source_of_blank {v : Value} (h : trim (written v) = "") (minted : Nat) :
    r.source v minted = .ok (.complete ⟨none, [.noText], minted⟩) := by
  have hreading {text : String} (hblank : trim text = "") :
      Reading.ofText r.dialect minted text = .ok ⟨none, [.noText], minted⟩ := by
    rw [Reading.ofText, if_pos hblank]
  unfold source
  split
  · next text =>
    have hblank : trim text = "" := h
    rw [if_pos hblank, hreading hblank]
    rfl
  · rw [hreading trim_empty]
    rfl

theorem exists_eq_text {v : Value} (h : trim (written v) ≠ "") : ∃ text, v = .text text := by
  cases v with
  | text text => exact ⟨text, rfl⟩
  | _ => exact absurd trim_empty h

theorem source_of_refused {v : Value} (hblank : trim (written v) ≠ "")
    (h : (r.isForeign || r.lacks recordMarkers) = true) (minted : Nat) :
    r.source v minted = .error r.failure := by
  obtain ⟨text, rfl⟩ := exists_eq_text hblank
  exact (if_neg hblank).trans (if_pos h)

/-- What is read where the markers of records can be used. -/
theorem source_of_not_refused {v : Value} (hblank : trim (written v) ≠ "")
    (h : (r.isForeign || r.lacks recordMarkers) = false) (minted : Nat) :
    r.source v minted =
      match r.readable? (lines (written v).toList) with
      | none => .complete <$> Reading.ofText r.dialect minted (written v)
      | some n =>
        ((Record.ended r.dialect 1 false 0 [] ((lines (written v).toList).take n)).foldlM
          (Reader.feed r.dialect) (Reader.start r.dialect minted)).map
            fun reader => .broken reader.minted r.failure := by
  obtain ⟨text, rfl⟩ := exists_eq_text hblank
  exact (if_neg hblank).trans (if_neg (Bool.not_eq_true _ ▸ h))

/-- What is in the place of a marker that cannot be used does not count. -/
theorem source_congr (h : DifferWithin r.unusable r.dialect d) (v : Value) (minted : Nat) :
    (r.withDialect d).source v minted = r.source v minted := by
  by_cases hblank : trim (written v) = ""
  · rw [source_of_blank hblank, source_of_blank hblank]
  cases hrefused : r.isForeign || r.lacks recordMarkers with
  | true =>
    rw [source_of_refused hblank hrefused, source_of_refused hblank (r := r.withDialect d) hrefused,
      failure_withDialect]
  | false =>
    have hlacks : r.lacks recordMarkers = false := (Bool.or_eq_false_iff.mp hrefused).2
    have hfeed : Reader.feed r.dialect = Reader.feed d :=
      Reader.feed_congr h (lacks_eq_false_iff.mp hlacks)
    have hstart : Reader.start r.dialect minted = Reader.start d minted := by
      rw [Reader.start, Reader.start, h.plurals]
    rw [source_of_not_refused hblank hrefused,
      source_of_not_refused hblank (r := r.withDialect d) hrefused, readable?_congr h]
    cases hreadable : r.readable? (lines (written v).toList) with
    | none =>
      simp only [dialect_withDialect, Reading.ofText, ofText_congr h hreadable, hfeed, hstart]
    | some n =>
      simp only [dialect_withDialect, failure_withDialect, ended_take_congr h hreadable, hfeed,
        hstart]

/-- What has been read of a text in a dialect: all of it, or its first records before reading
failed. -/
def Source.IsRead (d : Dialect) (text : String) (minted : Nat) (failure : Error) : Source → Prop
  | .complete reading => Reading.ofText d minted text = .ok reading
  | .broken m e => e = failure ∧ ∃ records reader, records <+: Record.ofText d text ∧
      records.foldlM (Reader.feed d) (Reader.start d minted) = .ok reader ∧ reader.minted = m

/-- **Only usable markers count**: a database that is read to its end is read as in every dialect
with the usable markers.  One that is not has been read up to one of its records, whatever stands
in for the markers that cannot be used. -/
theorem source_reads (h : DifferWithin r.unusable r.dialect d) {v : Value} {minted : Nat}
    {source : Source} (hsource : r.source v minted = .ok source) :
    source.IsRead d (written v) minted r.failure := by
  rw [← source_congr h] at hsource
  by_cases hblank : trim (written v) = ""
  · rw [source_of_blank hblank] at hsource
    obtain rfl := Except.ok.inj hsource
    exact if_pos hblank
  cases hrefused : r.isForeign || r.lacks recordMarkers with
  | true =>
    rw [source_of_refused hblank (r := r.withDialect d) hrefused] at hsource
    exact nomatch hsource
  | false =>
    rw [source_of_not_refused hblank (r := r.withDialect d) hrefused, dialect_withDialect]
      at hsource
    cases hreadable : (r.withDialect d).readable? (lines (written v).toList) with
    | none =>
      rw [hreadable] at hsource
      cases hreading : Reading.ofText d minted (written v) with
      | error e =>
        rw [hreading] at hsource
        exact nomatch hsource
      | ok reading =>
        rw [hreading] at hsource
        obtain rfl := Except.ok.inj hsource
        exact hreading
    | some n =>
      rw [hreadable] at hsource
      dsimp only at hsource
      have hprefix := Record.ended_take_isPrefix d 1 false 0 [] (lines (written v).toList) n
      cases hfold : (Record.ended d 1 false 0 [] ((lines (written v).toList).take n)).foldlM
          (Reader.feed d) (Reader.start d minted) with
      | error e =>
        rw [hfold] at hsource
        exact nomatch hsource
      | ok reader =>
        rw [hfold] at hsource
        obtain rfl := Except.ok.inj hsource
        exact ⟨rfl, _, reader, hprefix, hfold, rfl⟩

/-- Where every marker can be used, a database is read as in the dialect that was asked for. -/
theorem source_of_unusable_eq_nil (hforeign : r.isForeign = false) (h : r.unusable = [])
    (v : Value) (minted : Nat) :
    r.source v minted = .complete <$> Reading.ofText r.dialect minted (written v) := by
  have hlacks (names : List String) : r.lacks names = false := by
    simp [lacks, h]
  by_cases hblank : trim (written v) = ""
  · rw [source_of_blank hblank, Reading.ofText, if_pos hblank]
    rfl
  · have hreadable (raws : List (List Char)) : r.readable? raws = none := by
      simp [readable?, hforeign, hlacks]
    have hrefused : (r.isForeign || r.lacks recordMarkers) = false := by
      rw [hforeign, hlacks, Bool.or_false]
    rw [source_of_not_refused hblank hrefused, hreadable]

end Request

end Calculator

end Metrology
