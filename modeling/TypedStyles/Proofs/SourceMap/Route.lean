import TypedStyles.Proofs.SourceMap.Token
import TypedStyles.Proofs.Success
import TypedStyles.SourceMap.Encoding

/-!
# The route of a writer

Writing moves a cursor over tokens.  `Route` is the relation of the cursors
before and after, the mappings that are taken, and the tokens that are passed.
It has one constructor for each token, so a fact about written mappings is
proved by one step for a line and one for a segment.

`writeAll_eq_ok_iff` says that writing succeeds exactly along a route that does
not end with a new line, and what it writes is the text of the route.
-/

namespace TypedStyles

/-! ## One number -/

/-- A number is written if it fits in 32 bits with a sign. -/
theorem writeDelta_eq_ok_iff {field : MappingField} {current previous : Nat} {s : List Char} :
    writeDelta field current previous = .ok s ↔
      ∃ v : Int32, v.toInt = (current : Int) - previous ∧ s = Vlq.encode v.toInt64 := by
  rw [writeDelta]
  constructor
  · intro h
    split at h
    next fits =>
      have hv : (Int32.ofInt (current - previous)).toInt = (current : Int) - previous :=
        Int32.toInt_ofInt_of_le (by omega) (by omega)
      have hwide : (Int32.ofInt (current - previous)).toInt64
          = Int64.ofInt (current - previous) := by
        apply Int64.toInt_inj.mp
        rw [Int32.toInt_toInt64, hv, Int64.toInt_ofInt_of_le (by omega) (by omega)]
      refine ⟨Int32.ofInt (current - previous), hv, ?_⟩
      rw [hwide]
      exact (Except.ok.inj h).symm
    next => cases h
  · rintro ⟨v, hv, rfl⟩
    have hlow := v.le_toInt
    have hhigh := v.toInt_lt
    have hwide : Int64.ofInt (current - previous) = v.toInt64 := by
      apply Int64.toInt_inj.mp
      rw [Int32.toInt_toInt64, ← hv, Int64.toInt_ofInt_of_le (by omega) (by omega)]
    rw [if_pos (by omega), hwide]

/-! ## One segment -/

/-- The numbers of a delta lead from one cursor to another. -/
structure Delta.Between (d : Delta) (before after : Cursor) : Prop where
  column : d.column.toInt = (after.column.toNat : Int) - before.column.toNat
  source : d.source.toInt = (after.source.toNat : Int) - before.source.toNat
  originLine : d.originLine.toInt = (after.originLine.toNat : Int) - before.originLine.toNat
  originColumn :
    d.originColumn.toInt = (after.originColumn.toNat : Int) - before.originColumn.toNat

theorem Delta.text_eq (d : Delta) :
    d.text = Vlq.encode d.column.toInt64 ++ Vlq.encode d.source.toInt64 ++
      Vlq.encode d.originLine.toInt64 ++ Vlq.encode d.originColumn.toInt64 := by
  simp [Delta.text, Delta.numbers, Vlq.encodeAll]

/-- A segment is written as the delta between the cursors. -/
theorem writeSegment_eq_ok_iff {before after : Cursor} {s : List Char} :
    writeSegment before after = .ok s ↔ ∃ d : Delta, d.Between before after ∧ s = d.text := by
  rw [writeSegment]
  constructor
  · intro h
    obtain ⟨c, hc, h⟩ := bind_eq_ok_iff.mp h
    obtain ⟨f, hf, h⟩ := bind_eq_ok_iff.mp h
    obtain ⟨l, hl, h⟩ := bind_eq_ok_iff.mp h
    obtain ⟨o, ho, h⟩ := bind_eq_ok_iff.mp h
    obtain ⟨column, hcolumn, rfl⟩ := writeDelta_eq_ok_iff.mp hc
    obtain ⟨source, hsource, rfl⟩ := writeDelta_eq_ok_iff.mp hf
    obtain ⟨originLine, horiginLine, rfl⟩ := writeDelta_eq_ok_iff.mp hl
    obtain ⟨originColumn, horiginColumn, rfl⟩ := writeDelta_eq_ok_iff.mp ho
    refine ⟨⟨column, source, originLine, originColumn⟩,
      ⟨hcolumn, hsource, horiginLine, horiginColumn⟩, ?_⟩
    rw [Delta.text_eq]
    exact (Except.ok.inj h).symm
  · rintro ⟨d, between, rfl⟩
    rw [Delta.text_eq, writeDelta_eq_ok_iff.mpr ⟨_, between.column, rfl⟩,
      writeDelta_eq_ok_iff.mpr ⟨_, between.source, rfl⟩,
      writeDelta_eq_ok_iff.mpr ⟨_, between.originLine, rfl⟩,
      writeDelta_eq_ok_iff.mpr ⟨_, between.originColumn, rfl⟩]
    rfl

/-! ## One mapping -/

namespace Cursor

/-- The cursor at the beginning of the next line. -/
def nextLine (k : Cursor) : Cursor := { k with line := k.line + 1, opened := false, column := 0 }

/-- A mapping may be written on the line of the cursor. -/
structure Takes (lines : UInt32) (k : Cursor) (m : Mapping) : Prop where
  line : m.generated.line = k.line
  line_ne_zero : k.line ≠ 0
  line_le : k.line ≤ lines
  /-- The mapping does not come before the last one of the line. -/
  column : k.opened = true → k.column ≤ m.generated.column
  /-- The origin has a line. -/
  originLine : m.origin.position.line ≠ 0

theorem check_eq_ok_iff {lines : UInt32} {k : Cursor} {m : Mapping} :
    k.check lines m = .ok () ↔
      m.generated.line ≠ 0 ∧ m.generated.line ≤ lines ∧ m.origin.position.line ≠ 0 ∧
        ¬ k.Unsorted m := by
  rw [check]
  split
  next outside =>
    constructor
    · intro h
      cases h
    · rintro ⟨hzero, hle, -⟩
      rcases outside with hz | hlt
      · exact absurd hz hzero
      · exact absurd hle (UInt32.not_le.mpr hlt)
  next inside =>
    have hne : m.generated.line ≠ 0 := fun e => inside (Or.inl e)
    have hle : m.generated.line ≤ lines :=
      UInt32.not_lt.mp fun h => inside (Or.inr h)
    split
    next hzero => simp [hzero]
    next horigin =>
      split
      next hunsorted => simp [hunsorted]
      next hsorted => simp [hne, hle, horigin, hsorted]

theorem check_eq_ok_iff_takes {lines : UInt32} {k : Cursor} {m : Mapping}
    (h : m.generated.line = k.line) : k.check lines m = .ok () ↔ k.Takes lines m := by
  rw [check_eq_ok_iff, h]
  constructor
  · rintro ⟨hzero, hle, horigin, hsorted⟩
    refine ⟨h, hzero, hle, fun hopened => ?_, horigin⟩
    exact UInt32.not_lt.mp fun hlt => hsorted (Or.inr ⟨h, hopened, hlt⟩)
  · rintro ⟨-, hzero, hle, hcolumn, horigin⟩
    refine ⟨hzero, hle, horigin, ?_⟩
    rintro (hlt | ⟨-, hopened, hlt⟩)
    · rw [h] at hlt
      exact UInt32.lt_irrefl _ hlt
    · exact UInt32.not_lt.mpr (hcolumn hopened) hlt

theorem write_eq_ok_iff {lines : UInt32} {k k' : Cursor} {m : Mapping} {s : List Char} :
    k.write lines m = .ok (s, k') ↔
      k.check lines m = .ok () ∧ k' = (k.toLine m.generated.line).past m ∧
        ∃ segment, writeSegment (k.toLine m.generated.line) k' = .ok segment ∧
          s = k.separator m.generated.line ++ segment := by
  rw [write]
  constructor
  · intro h
    obtain ⟨⟨⟩, hcheck, h⟩ := bind_eq_ok_iff.mp h
    obtain ⟨segment, hsegment, h⟩ := bind_eq_ok_iff.mp h
    obtain ⟨rfl, rfl⟩ := Prod.mk.inj (Except.ok.inj h)
    exact ⟨hcheck, rfl, segment, hsegment, rfl⟩
  · rintro ⟨hcheck, rfl, segment, hsegment, rfl⟩
    exact bind_eq_ok_iff.mpr ⟨(), hcheck, bind_eq_ok_iff.mpr ⟨segment, hsegment, rfl⟩⟩

theorem writeAll_cons_eq_ok_iff {lines : UInt32} {k k' : Cursor} {m : Mapping}
    {ms : List Mapping} {s : List Char} :
    k.writeAll lines (m :: ms) = .ok (s, k') ↔
      ∃ head between tail, k.write lines m = .ok (head, between) ∧
        between.writeAll lines ms = .ok (tail, k') ∧ s = head ++ tail := by
  rw [writeAll]
  constructor
  · intro h
    obtain ⟨⟨head, between⟩, hhead, h⟩ := bind_eq_ok_iff.mp h
    obtain ⟨⟨tail, last⟩, htail, h⟩ := bind_eq_ok_iff.mp h
    obtain ⟨rfl, rfl⟩ := Prod.mk.inj (Except.ok.inj h)
    exact ⟨head, between, tail, hhead, htail, rfl⟩
  · rintro ⟨head, between, tail, hhead, htail, rfl⟩
    exact bind_eq_ok_iff.mpr ⟨_, hhead, bind_eq_ok_iff.mpr ⟨_, htail, rfl⟩⟩

/-- A mapping on the line of the cursor is written as one segment. -/
theorem write_eq_ok_iff_of_line {lines : UInt32} {k k' : Cursor} {m : Mapping} {s : List Char}
    (h : m.generated.line = k.line) :
    k.write lines m = .ok (s, k') ↔
      k.Takes lines m ∧ k' = k.past m ∧
        ∃ d : Delta, d.Between k k' ∧ s = comma k.opened ++ d.text := by
  have hstay : k.toLine m.generated.line = k := by
    rw [toLine, if_neg]
    rw [h]
    exact UInt32.lt_irrefl _
  have hseparator : k.separator m.generated.line = comma k.opened := by
    rw [separator, hstay, h, Nat.sub_self]
    cases k.opened with
    | false => rfl
    | true => rfl
  rw [write_eq_ok_iff, check_eq_ok_iff_takes h, hstay, hseparator]
  constructor
  · rintro ⟨takes, hk, segment, hsegment, hs⟩
    obtain ⟨d, between, rfl⟩ := writeSegment_eq_ok_iff.mp hsegment
    exact ⟨takes, hk, d, between, hs⟩
  · rintro ⟨takes, hk, d, between, hs⟩
    exact ⟨takes, hk, d.text, writeSegment_eq_ok_iff.mpr ⟨d, between, rfl⟩, hs⟩

/-! ## Passing a line -/

theorem toNat_nextLine {k : Cursor} {line : UInt32} (h : k.line < line) :
    k.nextLine.line.toNat = k.line.toNat + 1 := by
  have hlt := UInt32.lt_iff_toNat_lt.mp h
  have hsize := line.toNat_lt
  have hone : (1 : UInt32).toNat = 1 := rfl
  rw [nextLine, UInt32.toNat_add, hone]
  omega

theorem check_nextLine {lines : UInt32} {k : Cursor} {m : Mapping}
    (h : k.line < m.generated.line) : k.nextLine.check lines m = k.check lines m := by
  have hline := toNat_nextLine h
  have hlt := UInt32.lt_iff_toNat_lt.mp h
  have hhere : ¬ k.Unsorted m := by
    rintro (hbefore | ⟨heq, -⟩)
    · exact UInt32.lt_asymm h hbefore
    · rw [heq] at h
      exact UInt32.lt_irrefl _ h
  have hthere : ¬ k.nextLine.Unsorted m := by
    rintro (hbefore | ⟨-, hopened, -⟩)
    · have := UInt32.lt_iff_toNat_lt.mp hbefore
      omega
    · cases hopened
  simp only [check, if_neg hhere, if_neg hthere]

theorem toLine_nextLine {k : Cursor} {line : UInt32} (h : k.line < line) :
    k.nextLine.toLine line = k.toLine line := by
  have hline := toNat_nextLine h
  have hlt := UInt32.lt_iff_toNat_lt.mp h
  rw [toLine, toLine, if_pos h]
  by_cases hbelow : k.nextLine.line < line
  · rw [if_pos hbelow]
    rfl
  · have hsame : k.nextLine.line = line := by
      apply UInt32.toNat_inj.mp
      have := UInt32.lt_iff_toNat_lt.not.mp hbelow
      omega
    rw [if_neg hbelow, ← hsame]
    rfl

theorem separator_nextLine {k : Cursor} {line : UInt32} (h : k.line < line) :
    k.separator line = ';' :: k.nextLine.separator line := by
  have hline := toNat_nextLine h
  have hlt := UInt32.lt_iff_toNat_lt.mp h
  have hgap : line.toNat - k.line.toNat = line.toNat - k.nextLine.line.toNat + 1 := by omega
  rw [separator, separator, toLine_nextLine h, hgap, List.replicate_succ, List.cons_append]

/-- A semicolon is written for a line that is passed. -/
theorem write_eq_ok_iff_nextLine {lines : UInt32} {k k' : Cursor} {m : Mapping} {s : List Char}
    (h : k.line < m.generated.line) :
    k.write lines m = .ok (s, k') ↔
      ∃ s', k.nextLine.write lines m = .ok (s', k') ∧ s = ';' :: s' := by
  simp only [write_eq_ok_iff, check_nextLine h, toLine_nextLine h, separator_nextLine h]
  constructor
  · rintro ⟨hcheck, hk, segment, hsegment, rfl⟩
    exact ⟨_, ⟨hcheck, hk, segment, hsegment, rfl⟩, rfl⟩
  · rintro ⟨s', ⟨hcheck, hk, segment, hsegment, rfl⟩, rfl⟩
    exact ⟨hcheck, hk, segment, hsegment, rfl⟩

theorem writeAll_eq_ok_iff_nextLine {lines : UInt32} {k k' : Cursor} {m : Mapping}
    {ms : List Mapping} {s : List Char} (h : k.line < m.generated.line) :
    k.writeAll lines (m :: ms) = .ok (s, k') ↔
      ∃ s', k.nextLine.writeAll lines (m :: ms) = .ok (s', k') ∧ s = ';' :: s' := by
  simp only [writeAll_cons_eq_ok_iff, write_eq_ok_iff_nextLine h]
  constructor
  · rintro ⟨head, between, tail, ⟨head', hhead, rfl⟩, htail, rfl⟩
    exact ⟨_, ⟨head', between, tail, hhead, htail, rfl⟩, rfl⟩
  · rintro ⟨s', ⟨head, between, tail, hhead, htail, rfl⟩, rfl⟩
    exact ⟨_, between, tail, ⟨head, hhead, rfl⟩, htail, rfl⟩

/-- A mapping that is written is on a line of the text, and not above the
cursor. -/
theorem le_of_write_eq_ok {lines : UInt32} {k k' : Cursor} {m : Mapping} {s : List Char}
    (h : k.write lines m = .ok (s, k')) :
    k.line ≤ m.generated.line ∧ m.generated.line ≤ lines := by
  obtain ⟨hcheck, -⟩ := write_eq_ok_iff.mp h
  obtain ⟨-, hle, -, hsorted⟩ := check_eq_ok_iff.mp hcheck
  exact ⟨UInt32.not_lt.mp fun hlt => hsorted (Or.inl hlt), hle⟩

end Cursor

/-! ## Routes -/

/-- The cursor `k` takes the mappings on its way over the tokens and ends as
the last cursor. -/
inductive Route (lines : UInt32) :
    (k : Cursor) → List Mapping → List Token → Cursor → Prop where
  | nil {k} : Route lines k [] [] k
  /-- The cursor goes on to the next line of the text. -/
  | newline {k ms ts k'} :
      k.line < lines → Route lines k.nextLine ms ts k' → Route lines k ms (.newline :: ts) k'
  /-- The cursor takes a mapping on its line. -/
  | segment {k m ms d ts k'} :
      k.Takes lines m → d.Between k (k.past m) → Route lines (k.past m) ms ts k' →
      Route lines k (m :: ms) (.segment d :: ts) k'

/-- The tokens do not end with a new line. -/
def Token.Closed (ts : List Token) : Prop := ts.getLast? ≠ some .newline

namespace Route

variable {lines : UInt32} {k k' : Cursor} {ms : List Mapping} {ts : List Token}

/-- A route takes no mapping above its first cursor. -/
theorem line_le {m : Mapping} (route : Route lines k (m :: ms) ts k') :
    k.line ≤ m.generated.line := by
  generalize hall : m :: ms = all at route
  induction route with
  | nil => cases hall
  | @newline k _ _ _ hline _ ih =>
      have hnext := Cursor.toNat_nextLine hline
      have hle := UInt32.le_iff_toNat_le.mp (ih hall)
      apply UInt32.le_iff_toNat_le.mpr
      omega
  | segment takes _ _ _ =>
      obtain ⟨rfl, -⟩ := List.cons.inj hall
      exact UInt32.le_of_eq takes.line.symm

theorem exists_cons_of_closed (route : Route lines k ms ts k') (hne : ts ≠ [])
    (closed : Token.Closed ts) : ∃ m rest, ms = m :: rest := by
  induction route with
  | nil => exact absurd rfl hne
  | @newline _ _ ts _ _ _ ih =>
      cases ts with
      | nil => exact absurd rfl closed
      | cons t ts => exact ih (by simp) closed
  | @segment _ m ms => exact ⟨m, ms, rfl⟩

end Route

/-! ## Writing along a route -/

theorem Token.Closed.cons_segment {ts : List Token} (closed : Token.Closed ts) (d : Delta) :
    Token.Closed (.segment d :: ts) := by
  cases ts with
  | nil => simp [Token.Closed]
  | cons t ts => exact closed

theorem Token.Closed.of_cons {t : Token} {ts : List Token} (closed : Token.Closed (t :: ts)) :
    Token.Closed ts := by
  cases ts with
  | nil => simp [Token.Closed]
  | cons u ts => exact closed

open Cursor in
/-- Whatever is written is the text of a route. -/
theorem exists_route_of_writeAll {lines : UInt32} : ∀ {ms : List Mapping} {k k' : Cursor}
    {s : List Char}, k.writeAll lines ms = .ok (s, k') →
      ∃ ts, Token.Closed ts ∧ Route lines k ms ts k' ∧ s = Token.text k.opened ts
  | [], k, k', s, h => by
      cases h
      exact ⟨[], by simp [Token.Closed], .nil, rfl⟩
  | m :: ms, k, k', s, h => by
      -- The lines that are passed are written one by one, until the mapping is on the line.
      induction hgap : m.generated.line.toNat - k.line.toNat generalizing k s with
      | zero =>
          obtain ⟨head, between, tail, hhead, htail, rfl⟩ := writeAll_cons_eq_ok_iff.mp h
          have hline : m.generated.line = k.line := by
            have hle := UInt32.le_iff_toNat_le.mp (le_of_write_eq_ok hhead).1
            apply UInt32.toNat_inj.mp
            omega
          obtain ⟨takes, rfl, d, between, rfl⟩ := (write_eq_ok_iff_of_line hline).mp hhead
          obtain ⟨ts, closed, route, rfl⟩ := exists_route_of_writeAll htail
          exact ⟨.segment d :: ts, closed.cons_segment d, .segment takes between route, rfl⟩
      | succ gap ih =>
          have hbelow : k.line < m.generated.line := UInt32.lt_iff_toNat_lt.mpr (by omega)
          have hnext := toNat_nextLine hbelow
          have hlines : k.line < lines := by
            obtain ⟨head, between, tail, hhead, -⟩ := writeAll_cons_eq_ok_iff.mp h
            exact UInt32.lt_of_lt_of_le hbelow (le_of_write_eq_ok hhead).2
          obtain ⟨s', hs, rfl⟩ := (writeAll_eq_ok_iff_nextLine hbelow).mp h
          obtain ⟨ts, closed, route, rfl⟩ := ih k.nextLine s' hs (by omega)
          refine ⟨.newline :: ts, ?_, .newline hlines route, rfl⟩
          cases route with
          | newline _ _ => exact closed
          | segment _ _ _ => exact closed

open Cursor in
/-- The text of a route is written. -/
theorem writeAll_of_route {lines : UInt32} {k k' : Cursor} {ms : List Mapping} {ts : List Token}
    (route : Route lines k ms ts k') (closed : Token.Closed ts) :
    k.writeAll lines ms = .ok (Token.text k.opened ts, k') := by
  induction route with
  | nil => rfl
  | @newline k ms ts k' hline route ih =>
      have hne : ts ≠ [] := by
        rintro rfl
        exact closed rfl
      obtain ⟨m, rest, rfl⟩ := route.exists_cons_of_closed hne closed.of_cons
      have hbelow : k.line < m.generated.line := by
        have hnext := toNat_nextLine hline
        have hle := UInt32.le_iff_toNat_le.mp route.line_le
        apply UInt32.lt_iff_toNat_lt.mpr
        omega
      exact (writeAll_eq_ok_iff_nextLine hbelow).mpr ⟨_, ih closed.of_cons, rfl⟩
  | @segment k m ms d ts k' takes between route ih =>
      have hhead := (write_eq_ok_iff_of_line takes.line).mpr ⟨takes, rfl, d, between, rfl⟩
      exact writeAll_cons_eq_ok_iff.mpr ⟨_, _, _, hhead, ih closed.of_cons, rfl⟩

/-- Writing succeeds along a closed route, and nowhere else. -/
theorem writeAll_eq_ok_iff {lines : UInt32} {k k' : Cursor} {ms : List Mapping} {s : List Char} :
    k.writeAll lines ms = .ok (s, k') ↔
      ∃ ts, Token.Closed ts ∧ Route lines k ms ts k' ∧ s = Token.text k.opened ts := by
  constructor
  · exact exists_route_of_writeAll
  · rintro ⟨ts, closed, route, rfl⟩
    exact writeAll_of_route route closed

end TypedStyles
