import Mathlib.Data.List.ReduceOption
import TypedStyles.Proofs.SourceMap.Segment
import TypedStyles.Proofs.Traversal

/-!
# Documents as prefix sums

The mappings of a document are given by sums over its segments
(`Document.toMappings_prefix_sums`).  The reader cuts a document into lines and
a line into segments, and it keeps running sums across both.  Behind every
segment these are the sums of the segments so far, put into words, so reading is a
walk over all segments, each with those before it (`Document.toMappings_eq_mapM`).

The sums must fit in words as far as the reader comes (`Document.SumsFit`).

The line of an origin is stored counted from zero.  A sum of -1 stands for the
line zero, which no source file has, and the reader accepts it
(`Document.toMappings_lines`).
-/

namespace TypedStyles

/-! ## Reading all segments -/

/-- The segments of a line. -/
def lineSegments (line : Nat) (texts : List (List Char)) : List Segment := texts.map (⟨line, ·⟩)

/-- The segments of lines, the first of which has the number `line`. -/
def segmentsFrom : (line : Nat) → List (List Char) → List Segment
  | _, [] => []
  | line, text :: rest => lineSegments line (segments text) ++ segmentsFrom (line + 1) rest
termination_by structural _ rest => rest

theorem segmentsFrom_eq (line : Nat) (texts : List (List Char)) :
    segmentsFrom line texts = (texts.zipIdx line).flatMap fun (text, line) =>
      ((text.splitOn ',').filter (· ≠ [])).map (⟨line, ·⟩) := by
  induction texts generalizing line with
  | nil => rfl
  | cons text rest ih =>
      rw [segmentsFrom, ih, List.zipIdx_cons, List.flatMap_cons]
      rfl

/-- The mapping of a segment behind those before it, if it has one. -/
def Segment.result (doc : Document) (p : List Segment × Segment) :
    Except DecodingError (Option Mapping) :=
  (p.2.read doc p.1).map Prod.fst

namespace Segment

theorem read_eq (doc : Document) (before : List Segment) (s : Segment) :
    s.read doc before = (result doc (before, s)).map (·, (s.sums before).toSums) := by
  cases h : s.read doc before with
  | error e => simp [result, h, Except.map]
  | ok p => simp [result, h, Except.map, ← eq_sums_of_read h]

section Fit

variable {doc : Document} {p : List Segment × Segment} (fit : p.2.SumsFit p.1)
include fit

theorem result_eq_ok_iff {r : Option Mapping} : result doc p = .ok r ↔ p.2.Gives doc p.1 r := by
  rw [result, map_eq_ok_iff]
  constructor
  · rintro ⟨⟨r, k⟩, h, rfl⟩
    exact ((read_eq_ok_iff fit).mp h).1
  · intro gives
    exact ⟨(r, _), (read_eq_ok_iff fit).mpr ⟨gives, rfl⟩, rfl⟩

theorem result_eq_error_iff {e : DecodingError} :
    result doc p = .error e ↔ p.2.Refused doc p.1 e := by
  rw [result, map_eq_error_iff, read_eq_error_iff fit]

theorem exists_result_iff : (∃ r, result doc p = .ok r) ↔ p.2.Readable doc p.1 := by
  simp only [result, exists_map_iff, exists_read_iff fit]

end Fit

end Segment

namespace Totals

variable {doc : Document} {line : Nat}

/-- A line is read behind the segments before it. -/
theorem readLine_toSums (before : List Segment) (texts : List (List Char)) :
    (upTo line before).toSums.readLine doc line texts
      = ((withBefore before (lineSegments line texts)).mapM (Segment.result doc)).map
          fun rs => (rs.reduceOption, (upTo line (before ++ lineSegments line texts)).toSums) := by
  induction texts generalizing before with
  | nil => simp [Sums.readLine, lineSegments, withBefore, pure, Except.pure, Except.map]
  | cons text texts ih =>
      have hread : (upTo line before).toSums.read doc line text
          = (Segment.result doc (before, ⟨line, text⟩)).map
              (·, (upTo line (before ++ [⟨line, text⟩])).toSums) :=
        Segment.read_eq doc before ⟨line, text⟩
      have hrest := ih (before ++ [⟨line, text⟩])
      rw [Sums.readLine, hread]
      rw [lineSegments, List.map_cons, ← lineSegments, withBefore, List.mapM_cons]
      cases hresult : Segment.result doc (before, ⟨line, text⟩) with
      | error e => rfl
      | ok r =>
          simp only [bind, Except.bind, Except.map, hrest]
          cases (withBefore (before ++ [⟨line, text⟩]) (lineSegments line texts)).mapM
              (Segment.result doc) with
          | error e => rfl
          | ok rs => cases r with
            | none => simp [pure, Except.pure, List.reduceOption_cons_of_none]
            | some m => simp [pure, Except.pure, List.reduceOption_cons_of_some]

/-- The column is summed anew on a line that no segment stands on. -/
theorem nextLine_toSums {before : List Segment} (h : ∀ s ∈ before, s.line ≤ line) :
    (upTo line before).toSums.nextLine = (upTo (line + 1) before).toSums := by
  have hnone : before.filter (fun s => s.line = line + 1) = [] := by
    rw [List.filter_eq_nil_iff]
    intro s hs hline
    have := h s hs
    have := of_decide_eq_true hline
    omega
  simp [Sums.nextLine, toSums, upTo, hnone, Segment.total]

/-- Lines are read behind the segments before them. -/
theorem readLines_eq_mapM {before : List Segment} (h : ∀ s ∈ before, s.line < line) (s : Sums)
    (hs : s.nextLine = (upTo line before).toSums) (texts : List (List Char)) :
    s.readLines doc line texts
      = ((withBefore before (segmentsFrom line texts)).mapM (Segment.result doc)).map
          List.reduceOption := by
  induction texts generalizing line s before with
  | nil => simp [Sums.readLines, segmentsFrom, withBefore, pure, Except.pure, Except.map]
  | cons text texts ih =>
      have hline : ∀ t ∈ before ++ lineSegments line (segments text), t.line ≤ line := by
        intro t ht
        rcases List.mem_append.mp ht with ht | ht
        · exact Nat.le_of_lt (h t ht)
        · obtain ⟨text, -, rfl⟩ := List.mem_map.mp ht
          exact Nat.le_refl line
      have hrest := ih (fun t ht => Nat.lt_succ_of_le (hline t ht)) _ (nextLine_toSums hline)
      rw [Sums.readLines, hs, readLine_toSums, segmentsFrom, withBefore_append, List.mapM_append]
      cases (withBefore before (lineSegments line (segments text))).mapM (Segment.result doc) with
      | error e => rfl
      | ok rs =>
          simp only [bind, Except.bind, Except.map, hrest]
          cases (withBefore (before ++ lineSegments line (segments text))
              (segmentsFrom (line + 1) texts)).mapM (Segment.result doc) with
          | error e => rfl
          | ok rest => simp [pure, Except.pure, List.reduceOption_append]

end Totals

/-- A document is read segment by segment, each behind those before it. -/
theorem Document.toMappings_eq_mapM (doc : Document) :
    doc.toMappings
      = ((withBefore [] doc.allSegments).mapM (Segment.result doc)).map List.reduceOption := by
  have hzero : Sums.zero.nextLine = (Totals.upTo 1 []).toSums := rfl
  rw [toMappings, Totals.readLines_eq_mapM (by simp) _ hzero, segmentsFrom_eq]
  rfl

/-! ## Documents -/

namespace Document

/-- The sums fit in words at every segment that the reader comes to. -/
def SumsFit (doc : Document) : Prop :=
  ∀ before s after, doc.allSegments = before ++ s :: after →
    (∀ earlier t later, before = earlier ++ t :: later → t.Readable doc earlier) →
    s.SumsFit before

variable {doc : Document} {ms : List Mapping}

/-- The sums fit if they do so at every segment. -/
theorem sumsFit_of_all (h : (withBefore [] doc.allSegments).all fun p => p.2.SumsFit p.1) :
    doc.SumsFit := by
  have hforall : ∀ p ∈ withBefore [] doc.allSegments, p.2.SumsFit p.1 := by simpa using h
  exact fun before s after hsplit _ => forall_mem_withBefore_iff.mp hforall before s after hsplit

namespace SumsFit

variable (fit : doc.SumsFit)
include fit

/-- The first segments are read if they are readable. -/
theorem exists_mapM_result_iff {ss rest : List Segment} (hss : doc.allSegments = ss ++ rest) :
    (∃ rs, (withBefore [] ss).mapM (Segment.result doc) = .ok rs) ↔
      ∀ before s after, ss = before ++ s :: after → s.Readable doc before := by
  rw [exists_mapM_withBefore_iff]
  induction ss using List.reverseRecOn generalizing rest with
  | nil => simp
  | append_singleton ss s ih =>
      rw [List.append_assoc] at hss
      rw [forall_split_concat_iff, forall_split_concat_iff, ih hss]
      exact and_congr_right fun hreadable =>
        Segment.exists_result_iff (fit ss s rest hss hreadable)

theorem exists_toMappings_iff :
    (∃ ms, doc.toMappings = .ok ms) ↔
      ∀ before s after, doc.allSegments = before ++ s :: after → s.Readable doc before := by
  rw [← fit.exists_mapM_result_iff (List.append_nil _).symm, toMappings_eq_mapM, exists_map_iff]

/-- The sums fit at every segment of a document that is readable. -/
theorem forall_sumsFit
    (h : ∀ before s after, doc.allSegments = before ++ s :: after → s.Readable doc before) :
    ∀ before s after, doc.allSegments = before ++ s :: after → s.SumsFit before := by
  intro before s after hsplit
  refine fit before s after hsplit fun earlier t later hbefore => ?_
  exact h earlier t (later ++ s :: after) (by rw [hsplit, hbefore, List.append_assoc]; rfl)

/-- A document is read as what its segments give. -/
theorem mapM_result_eq_ok_iff {rs : List (Option Mapping)} :
    (withBefore [] doc.allSegments).mapM (Segment.result doc) = .ok rs ↔
      List.Forall₂ (fun p r => p.2.Gives doc p.1 r) (withBefore [] doc.allSegments) rs := by
  constructor
  · intro h
    have hreadable := (fit.exists_mapM_result_iff (List.append_nil _).symm).mp ⟨rs, h⟩
    have hfit : ∀ p ∈ withBefore [] doc.allSegments, p.2.SumsFit p.1 :=
      forall_mem_withBefore_iff.mpr (fit.forall_sumsFit hreadable)
    have hboth := (List.forall₂_and_left _ _).mpr ⟨hfit, mapM_eq_ok_iff.mp h⟩
    exact hboth.imp fun p r hp => (Segment.result_eq_ok_iff hp.1).mp hp.2
  · intro h
    have hgives := h.imp fun p r gives => And.intro gives.readable gives
    have hreadable := forall_mem_withBefore_iff.mp ((List.forall₂_and_left _ _).mp hgives).1
    have hfit : ∀ p ∈ withBefore [] doc.allSegments, p.2.SumsFit p.1 :=
      forall_mem_withBefore_iff.mpr (fit.forall_sumsFit hreadable)
    have hboth := (List.forall₂_and_left _ _).mpr ⟨hfit, h⟩
    exact mapM_eq_ok_iff.mpr (hboth.imp fun p r hp => (Segment.result_eq_ok_iff hp.1).mpr hp.2)

theorem toMappings_eq_ok_iff :
    doc.toMappings = .ok ms ↔
      ∃ rs, List.Forall₂ (fun p r => p.2.Gives doc p.1 r) (withBefore [] doc.allSegments) rs ∧
        rs.reduceOption = ms := by
  simp only [toMappings_eq_mapM, map_eq_ok_iff, fit.mapM_result_eq_ok_iff]

theorem toMappings_eq_error_iff {e : DecodingError} :
    doc.toMappings = .error e ↔
      ∃ before s after, doc.allSegments = before ++ s :: after ∧
        (∀ earlier t later, before = earlier ++ t :: later → t.Readable doc earlier) ∧
        s.Refused doc before e := by
  rw [toMappings_eq_mapM, map_eq_error_iff, mapM_withBefore_eq_error_iff]
  apply exists_congr
  intro before
  apply exists_congr
  intro s
  apply exists_congr
  intro after
  apply and_congr_right
  intro hsplit
  rw [fit.exists_mapM_result_iff hsplit]
  exact and_congr_right fun hreadable =>
    Segment.result_eq_error_iff (fit before s after hsplit hreadable)

/-- The mappings of a document are those that its segments give. -/
theorem mem_toMappings_iff (h : doc.toMappings = .ok ms) {m : Mapping} :
    m ∈ ms ↔ ∃ before s after, doc.allSegments = before ++ s :: after ∧
      s.Gives doc before (some m) := by
  have hreadable := fit.exists_toMappings_iff.mp ⟨ms, h⟩
  have hfit := fit.forall_sumsFit hreadable
  rw [toMappings_eq_mapM, map_eq_ok_iff] at h
  obtain ⟨rs, hrs, rfl⟩ := h
  rw [List.reduceOption_mem_iff, mem_iff_of_mapM_eq_ok hrs]
  constructor
  · rintro ⟨p, hp, hresult⟩
    obtain ⟨before, s, after, hsplit, rfl⟩ := mem_withBefore_iff.mp hp
    have gives := (Segment.result_eq_ok_iff (hfit before s after hsplit)).mp hresult
    exact ⟨before, s, after, hsplit, gives⟩
  · rintro ⟨before, s, after, hsplit, gives⟩
    refine ⟨(before, s), mem_withBefore_iff.mpr ⟨before, s, after, hsplit, rfl⟩, ?_⟩
    exact (Segment.result_eq_ok_iff (hfit before s after hsplit)).mpr gives

end SumsFit

/-- **Prefix sums.**  The sums of a document fit in words as far as it is read.  Then it can be
read if every segment can be read behind those before it, and it has the mappings that its
segments give, in the order in which they stand.  Otherwise the first segment that cannot be read
is reported. -/
theorem toMappings_prefix_sums (fit : doc.SumsFit) :
    ((∃ ms, doc.toMappings = .ok ms) ↔
        ∀ before s after, doc.allSegments = before ++ s :: after → s.Readable doc before) ∧
      (∀ ms, doc.toMappings = .ok ms ↔
        ∃ rs, List.Forall₂ (fun p r => p.2.Gives doc p.1 r) (withBefore [] doc.allSegments) rs ∧
          rs.reduceOption = ms) ∧
      ∀ e, doc.toMappings = .error e ↔
        ∃ before s after, doc.allSegments = before ++ s :: after ∧
          (∀ earlier t later, before = earlier ++ t :: later → t.Readable doc earlier) ∧
          s.Refused doc before e :=
  ⟨fit.exists_toMappings_iff, fun _ => fit.toMappings_eq_ok_iff,
    fun _ => fit.toMappings_eq_error_iff⟩

/-- A segment of one number and two mappings.  The second one is written relative to the first,
apart from its column. -/
theorem toMappings_prefix_sums_two_lines :
    Document.SumsFit ⟨3, ["a.css"], [], "C,CAAA;KACQ"⟩ ∧
      ∃ rs, List.Forall₂ (fun p r => p.2.Gives ⟨3, ["a.css"], [], "C,CAAA;KACQ"⟩ p.1 r)
          (withBefore [] (Document.allSegments ⟨3, ["a.css"], [], "C,CAAA;KACQ"⟩)) rs ∧
        rs.reduceOption =
          [⟨⟨1, 2⟩, ⟨"a.css", ⟨1, 0⟩, none⟩⟩, ⟨⟨2, 5⟩, ⟨"a.css", ⟨2, 8⟩, none⟩⟩] := by
  have fit : Document.SumsFit ⟨3, ["a.css"], [], "C,CAAA;KACQ"⟩ :=
    sumsFit_of_all (by decide +kernel)
  exact ⟨fit, ((toMappings_prefix_sums fit).2.1 _).mp (by rfl)⟩

/-- A line of an origin that does not fit in a word when it is counted from one. -/
example : Document.toMappings ⟨3, ["a.css"], [], "AA+///////////PA"⟩
    = .error (.outOfRange .originLine (-0x8000000000000000)) := by rfl

/-! ## Lines -/

theorem one_le_line_of_mem_allSegments {s : Segment} (h : s ∈ doc.allSegments) : 1 ≤ s.line := by
  obtain ⟨⟨group, line⟩, hgroup, hs⟩ := List.mem_flatMap.mp h
  obtain ⟨text, -, rfl⟩ := List.mem_map.mp hs
  exact (List.mem_zipIdx hgroup).1

/-- **Lines of a document.**  No mapping of a document that can be read stands on the line zero of
the generated text.  Its origin is on the line zero exactly where the sum of origin lines, which
are stored counted from zero, is -1, and no sum is lower. -/
theorem toMappings_lines (fit : doc.SumsFit) (h : doc.toMappings = .ok ms) :
    (∀ m ∈ ms, m.generated.line ≠ 0) ∧
      ((∀ m ∈ ms, m.origin.position.line ≠ 0) ↔
        ∀ before s after name, doc.allSegments = before ++ s :: after →
          s.Carries doc before name → (s.sums before).originLine ≠ -1) ∧
      ∀ before s after name, doc.allSegments = before ++ s :: after →
        s.Carries doc before name → -1 ≤ (s.sums before).originLine := by
  have hreadable := fit.exists_toMappings_iff.mp ⟨ms, h⟩
  have hfit := fit.forall_sumsFit hreadable
  refine ⟨fun m hm hzero => ?_, ⟨fun hne before s after name hsplit carries => ?_,
    fun hsums m hm => ?_⟩, fun before s after name hsplit carries => ?_⟩
  · obtain ⟨before, s, after, hsplit, gives⟩ := (fit.mem_toMappings_iff h).mp hm
    obtain ⟨name, -, places⟩ := gives.exists_carries
    have hmem : s ∈ doc.allSegments := by simp [hsplit]
    have hline := one_le_line_of_mem_allSegments hmem
    have hplace := places.generatedLine
    rw [hzero, UInt32.toNat_zero] at hplace
    omega
  · obtain ⟨m, gives, places⟩ :=
      carries.exists_gives (hfit before s after hsplit) (hreadable before s after hsplit)
    have hm := (fit.mem_toMappings_iff h).mpr ⟨before, s, after, hsplit, gives⟩
    exact places.originLine_ne_zero_iff.mp (hne m hm)
  · obtain ⟨before, s, after, hsplit, gives⟩ := (fit.mem_toMappings_iff h).mp hm
    obtain ⟨name, carries, places⟩ := gives.exists_carries
    exact places.originLine_ne_zero_iff.mpr (hsums before s after name hsplit carries)
  · obtain ⟨m, -, places⟩ :=
      carries.exists_gives (hfit before s after hsplit) (hreadable before s after hsplit)
    have hplace := places.originLine
    omega

/-- A sum of 1 and then one of 0. -/
theorem toMappings_lines_descending :
    Document.toMappings ⟨3, ["a.css"], [], ";AACA,CADA"⟩
        = .ok [⟨⟨2, 0⟩, ⟨"a.css", ⟨2, 0⟩, none⟩⟩, ⟨⟨2, 1⟩, ⟨"a.css", ⟨1, 0⟩, none⟩⟩] ∧
      ∀ before s after name,
        Document.allSegments ⟨3, ["a.css"], [], ";AACA,CADA"⟩ = before ++ s :: after →
          s.Carries ⟨3, ["a.css"], [], ";AACA,CADA"⟩ before name →
          (s.sums before).originLine ≠ -1 := by
  have h : Document.toMappings ⟨3, ["a.css"], [], ";AACA,CADA"⟩
      = .ok [⟨⟨2, 0⟩, ⟨"a.css", ⟨2, 0⟩, none⟩⟩, ⟨⟨2, 1⟩, ⟨"a.css", ⟨1, 0⟩, none⟩⟩] := by rfl
  have hfit : Document.SumsFit ⟨3, ["a.css"], [], ";AACA,CADA"⟩ :=
    sumsFit_of_all (by decide +kernel)
  exact ⟨h, (toMappings_lines hfit h).2.1.mp (by decide)⟩

/-- The sum of origin lines is -1, and the mapping is read with an origin on the line zero. -/
theorem toMappings_origin_line_zero :
    ∃ m, Document.toMappings ⟨3, ["a.css"], [], "AADA"⟩ = .ok [m] ∧ m.origin.position.line = 0 :=
  ⟨⟨⟨1, 0⟩, ⟨"a.css", ⟨0, 0⟩, none⟩⟩, by rfl, rfl⟩

end Document

end TypedStyles
