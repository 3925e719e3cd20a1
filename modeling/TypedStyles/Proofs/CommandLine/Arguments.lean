import Mathlib.Data.List.Basic
import Mathlib.Tactic.MkIffOfInductiveProp
import TypedStyles.CommandLine.Arguments
import TypedStyles.Proofs.CommandLine.Path
import TypedStyles.Proofs.Success

/-!
# What a command line asks for

A command line is told by a grammar.  `Spelled` gives every way to write an
argument, and `Spells` puts arguments together.  The arguments are read as the
items that they spell, and they spell some unless there is a fault among them
(`spells_iff`).

A command gathers what the items ask for (`Command.Gathers`): one path, one
stylesheet, and each option at most once.  Gathering keeps what was given before,
so `Given.Makes` tells a command by both, and one more item only moves from one to
the other.  So a command is read exactly from the arguments that ask for it
(`Request.ofArguments_eq_generate_iff`).
-/

namespace TypedStyles.CommandLine

/-! ## Options -/

/-- The name of a mode on the command line. -/
def MapMode.name : MapMode → String
  | .none => "none"
  | .sibling => "sibling"
  | .inline => "inline"

/-- The letter of an option, if it has one. -/
def Setting.letter? : Setting → Option Char
  | .source => some 's'
  | .out => some 'o'
  | .map => none

/-- The letter of an option, if it has one. -/
def Switch.letter? : Switch → Option Char
  | .lastWins => none
  | .help => some 'h'
  | .version => some 'V'

/-- How an option is called. -/
def Flag.label : Flag → String
  | .setting s => s.label
  | .switch s => s.label

/-- The letter of an option, if it has one. -/
def Flag.letter? : Flag → Option Char
  | .setting s => s.letter?
  | .switch s => s.letter?

theorem MapMode.ofName?_eq_some_iff {name : OsString} {mode : MapMode} :
    ofName? name = some mode ↔ name = .ofString mode.name := by
  constructor
  · intro h
    simp only [ofName?] at h
    split_ifs at h with hnone hsibling hinline
    · rw [hnone, ← Option.some.inj h]
      rfl
    · rw [hsibling, ← Option.some.inj h]
      rfl
    · rw [hinline, ← Option.some.inj h]
      rfl
  · rintro rfl
    cases mode <;> decide +kernel

theorem MapMode.ofString_name_inj {mode mode' : MapMode} :
    OsString.ofString mode.name = .ofString mode'.name ↔ mode = mode' := by
  rw [← ofName?_eq_some_iff, ofName?_eq_some_iff.mpr rfl, Option.some.injEq]

theorem Flag.ofName?_eq_some_iff {name : OsString} {flag : Flag} :
    ofName? name = some flag ↔ OsString.ofString "--" ++ name = .ofString flag.label := by
  constructor
  · intro h
    simp only [ofName?] at h
    split_ifs at h with h₁ h₂ h₃ h₄ h₅ h₆
    all_goals
      obtain rfl := Option.some.inj h
      subst name
      decide +kernel
  · intro h
    have hbytes := congrArg OsString.bytes h
    have hname : name = ⟨(OsString.ofString flag.label).bytes.drop 2⟩ := by
      rw [← h]
      rfl
    rw [hname]
    rcases flag with s | s <;> cases s <;> decide +kernel

theorem Flag.ofLetter?_eq_some_iff {b : UInt8} {flag : Flag} :
    ofLetter? b = some flag ↔ flag.letter?.map Char.toUInt8 = some b := by
  constructor
  · intro h
    simp only [ofLetter?] at h
    split_ifs at h
    all_goals
      obtain rfl := Option.some.inj h
      subst b
      rfl
  · intro h
    rcases flag with s | s <;> cases s <;> cases h <;> decide +kernel

/-! ## Arguments -/

/-- The argument is no option.  A dash alone is none. -/
def OsString.IsPlain (a : OsString) : Prop := a.bytes = [dash] ∨ a.bytes.head? ≠ some dash

/-- Letters of options without values, and what they ask for. -/
inductive Letters : List UInt8 → List Item → Prop where
  | nil : Letters [] []
  | cons {s : Switch} {c bytes is} :
      s.letter? = some c → Letters bytes is → Letters (c.toUInt8 :: bytes) (.on s :: is)

/-- One argument, what it asks for, and the option that takes the next argument as its value. -/
inductive Spelled : OsString → List Item → Option Setting → Prop where
  | path {p} : p.IsPlain → Spelled p [.path p] none
  | switch (s : Switch) : Spelled (.ofString s.label) [.on s] none
  | setting (s : Setting) : Spelled (.ofString s.label) [] (some s)
  /-- The value stands behind an equals sign. -/
  | assigned (s : Setting) (value : OsString) :
      Spelled (.ofString (s.label ++ "=") ++ value) [.set s value] none
  | letters {bytes is} : bytes ≠ [] → Letters bytes is → Spelled ⟨dash :: bytes⟩ is none
  | letter {bytes is c} {s : Setting} : Letters bytes is → s.letter? = some c →
      Spelled ⟨dash :: (bytes ++ [c.toUInt8])⟩ is (some s)
  /-- The value stands right behind the letter. -/
  | attached {bytes is c value} {s : Setting} : Letters bytes is → s.letter? = some c →
      value ≠ [] → value.head? ≠ some equalsSign →
      Spelled ⟨dash :: (bytes ++ c.toUInt8 :: value)⟩ (is ++ [.set s ⟨value⟩]) none
  /-- The value stands behind the letter and an equals sign. -/
  | letterAssigned {bytes is c value} {s : Setting} : Letters bytes is → s.letter? = some c →
      Spelled ⟨dash :: (bytes ++ c.toUInt8 :: equalsSign :: value)⟩ (is ++ [.set s ⟨value⟩]) none

/-- The arguments of a command line, and what they ask for in turn. -/
inductive Spells : List OsString → List Item → Prop where
  | nil : Spells [] []
  /-- Behind two dashes alone every argument is a path. -/
  | paths (ps : List OsString) : Spells (.ofString "--" :: ps) (ps.map .path)
  | alone {a is rest more} : Spelled a is none → Spells rest more → Spells (a :: rest) (is ++ more)
  /-- The value of an option stands apart from it. -/
  | value {a is s v rest more} : Spelled a is (some s) → v.IsPlain → Spells rest more →
      Spells (a :: v :: rest) (is ++ .set s v :: more)

/-- Nothing that is asked for is a fault. -/
def NoFault (is : List Item) : Prop := ∀ e, Item.fault e ∉ is

theorem noFault_append_iff {is is' : List Item} :
    NoFault (is ++ is') ↔ NoFault is ∧ NoFault is' := by
  simp only [NoFault, List.mem_append, not_or, forall_and]

theorem noFault_cons_iff {i : Item} {is : List Item} :
    NoFault (i :: is) ↔ (∀ e, i ≠ .fault e) ∧ NoFault is := by
  simp only [NoFault, List.mem_cons, not_or, forall_and, ne_eq, eq_comm]

theorem isValue_eq_true_iff {a : OsString} : isValue a = true ↔ a.IsPlain := by
  simp [isValue, OsString.IsPlain]

/-! ## Letters -/

theorem Letters.noFault {bytes : List UInt8} {is : List Item} (h : Letters bytes is) :
    NoFault is := by
  induction h with
  | nil => exact fun _ => List.not_mem_nil
  | cons _ _ ih => exact noFault_cons_iff.mpr ⟨nofun, ih⟩

/-- What stands behind letters of options without values is read on its own. -/
theorem Letters.parseLetters_append {bytes : List UInt8} {is : List Item} (h : Letters bytes is)
    (more : List UInt8) :
    parseLetters (bytes ++ more)
      = ⟨is ++ (parseLetters more).items, (parseLetters more).waiting⟩ := by
  induction h with
  | nil => rfl
  | @cons s c bytes is hs _ ih =>
      have hletter : Flag.ofLetter? c.toUInt8 = some (.switch s) :=
        Flag.ofLetter?_eq_some_iff.mpr (congrArg (Option.map Char.toUInt8) hs)
      simp only [List.cons_append, parseLetters, hletter, ih]

theorem parseLetters_setting {s : Setting} {c : Char} (hs : s.letter? = some c)
    (value : List UInt8) :
    parseLetters (c.toUInt8 :: value)
      = if value = [] then ⟨[], some s⟩ else ⟨[.set s (attachedValue value)], none⟩ := by
  have hletter : Flag.ofLetter? c.toUInt8 = some (.setting s) :=
    Flag.ofLetter?_eq_some_iff.mpr (congrArg (Option.map Char.toUInt8) hs)
  simp only [parseLetters, hletter]

/-- Letters without a fault are options without values, of which the last can be followed by an
option that has one. -/
theorem letters_of_noFault {bytes : List UInt8} (h : NoFault (parseLetters bytes).items) :
    Letters bytes (parseLetters bytes).items ∧ (parseLetters bytes).waiting = none ∨
      ∃ front is c value, ∃ s : Setting, bytes = front ++ c.toUInt8 :: value ∧
        Letters front is ∧ s.letter? = some c := by
  induction bytes with
  | nil => exact .inl ⟨.nil, rfl⟩
  | cons b bytes ih =>
      cases hletter : Flag.ofLetter? b with
      | none =>
          simp only [parseLetters, hletter] at h
          exact absurd List.mem_cons_self (h _)
      | some flag =>
          obtain ⟨c, hc, rfl⟩ := Option.map_eq_some_iff.mp (Flag.ofLetter?_eq_some_iff.mp hletter)
          cases flag with
          | setting s => exact .inr ⟨[], [], c, bytes, s, rfl, .nil, hc⟩
          | switch s =>
              simp only [parseLetters, hletter] at h ⊢
              rcases ih (noFault_cons_iff.mp h).2 with ⟨hletters, hwaiting⟩ | hmore
              · exact .inl ⟨.cons hc hletters, hwaiting⟩
              · obtain ⟨front, is, d, value, t, rfl, hletters, ht⟩ := hmore
                exact .inr
                  ⟨c.toUInt8 :: front, .on s :: is, d, value, t, rfl, .cons hc hletters, ht⟩

/-! ## One argument -/

theorem OsString.IsPlain.parseArgument {a : OsString} (h : a.IsPlain) :
    parseArgument a = ⟨[.path a], none⟩ := by
  obtain ⟨bytes⟩ := a
  rcases h with hdash | hhead
  · obtain rfl : bytes = [dash] := hdash
    rfl
  · match bytes with
    | [] => rfl
    | [_] => rfl
    | b :: c :: rest =>
        have hb : b ≠ dash := fun hb => hhead (congrArg some hb)
        simp only [CommandLine.parseArgument, if_pos hb]

/-- A letter that is an option is not a dash. -/
theorem toUInt8_ne_dash (flag : Flag) {c : Char} (h : flag.letter? = some c) :
    c.toUInt8 ≠ dash := by
  rcases flag with s | s <;> cases s <;> cases h <;> decide +kernel

theorem parseArgument_letters {bytes : List UInt8} {b : UInt8} (hb : b ≠ dash) :
    parseArgument ⟨dash :: b :: bytes⟩ = parseLetters (b :: bytes) := by
  simp only [parseArgument, if_neg hb, ne_eq, not_true_eq_false, if_false]

theorem Letters.parseArgument {bytes : List UInt8} {is : List Item} (h : Letters bytes is)
    (more : List UInt8) (hne : bytes ++ more ≠ []) (hmore : more.head? ≠ some dash) :
    parseArgument ⟨dash :: (bytes ++ more)⟩
      = ⟨is ++ (parseLetters more).items, (parseLetters more).waiting⟩ := by
  rw [← h.parseLetters_append more]
  cases h with
  | nil =>
      cases more with
      | nil => exact absurd rfl hne
      | cons b more => exact parseArgument_letters fun hb => hmore (congrArg some hb)
  | @cons s c bytes is hs _ =>
      exact parseArgument_letters (toUInt8_ne_dash (.switch s) hs)

theorem attachedValue_of_head?_ne {value : List UInt8} (h : value.head? ≠ some equalsSign) :
    attachedValue value = ⟨value⟩ := by
  rw [attachedValue, if_neg h]

theorem attachedValue_equalsSign (value : List UInt8) :
    attachedValue (equalsSign :: value) = ⟨value⟩ := rfl

/-- What is spelled is what is read. -/
theorem Spelled.parseArgument {a : OsString} {is : List Item} {waiting : Option Setting}
    (h : Spelled a is waiting) : parseArgument a = ⟨is, waiting⟩ := by
  cases h with
  | path h => exact h.parseArgument
  | switch s => cases s <;> rfl
  | setting s => cases s <;> rfl
  | assigned s value => cases s <;> rfl
  | letters hne h =>
      have hread := h.parseArgument [] (by simpa using hne) (by simp)
      simpa [parseLetters] using hread
  | @letter bytes is c s h hs =>
      have hdash := toUInt8_ne_dash (.setting s) hs
      rw [h.parseArgument _ (by simp) (by simpa using hdash), parseLetters_setting hs]
      simp
  | @attached bytes is c value s h hs hvalue hequals =>
      have hdash := toUInt8_ne_dash (.setting s) hs
      rw [h.parseArgument _ (by simp) (by simpa using hdash), parseLetters_setting hs,
        if_neg hvalue, attachedValue_of_head?_ne hequals]
  | @letterAssigned bytes is c value s h hs =>
      have hdash := toUInt8_ne_dash (.setting s) hs
      rw [h.parseArgument _ (by simp) (by simpa using hdash), parseLetters_setting hs,
        if_neg (List.cons_ne_nil _ _), attachedValue_equalsSign]

theorem Spelled.noFault {a : OsString} {is : List Item} {waiting : Option Setting}
    (h : Spelled a is waiting) : NoFault is := by
  have hnil : NoFault [] := fun _ => List.not_mem_nil
  cases h with
  | path _ => exact noFault_cons_iff.mpr ⟨nofun, hnil⟩
  | switch s => exact noFault_cons_iff.mpr ⟨nofun, hnil⟩
  | setting s => exact hnil
  | assigned s value => exact noFault_cons_iff.mpr ⟨nofun, hnil⟩
  | letters _ h => exact h.noFault
  | letter h _ => exact h.noFault
  | attached h _ _ _ => exact noFault_append_iff.mpr ⟨h.noFault, noFault_cons_iff.mpr ⟨nofun, hnil⟩⟩
  | letterAssigned h _ =>
      exact noFault_append_iff.mpr ⟨h.noFault, noFault_cons_iff.mpr ⟨nofun, hnil⟩⟩

/-- Two dashes alone are no option. -/
theorem Spelled.ne_dashes {a : OsString} {is : List Item} {waiting : Option Setting}
    (h : Spelled a is waiting) : a ≠ .ofString "--" := by
  rintro rfl
  have hfault : CommandLine.parseArgument (.ofString "--") = ⟨[.fault (.unknown "--")], none⟩ := rfl
  obtain ⟨rfl, rfl⟩ := Parsed.mk.inj (h.parseArgument.symm.trans hfault)
  exact h.noFault _ List.mem_cons_self

/-- The option that letters end with. -/
theorem spelled_of_setting {front : List UInt8} {is : List Item} {c : Char} {s : Setting}
    (h : Letters front is) (hs : s.letter? = some c) (value : List UInt8) :
    ∃ is' waiting, Spelled ⟨dash :: (front ++ c.toUInt8 :: value)⟩ is' waiting := by
  by_cases hvalue : value = []
  · subst hvalue
    exact ⟨_, _, .letter h hs⟩
  · by_cases hequals : value.head? = some equalsSign
    · obtain ⟨rest, rfl⟩ := List.head?_eq_some_iff.mp hequals
      exact ⟨_, _, .letterAssigned h hs⟩
    · exact ⟨_, _, .attached h hs hvalue hequals⟩

theorem eq_equalsSign_of_dropWhile {bytes : List UInt8} {b : UInt8} {value : List UInt8}
    (h : bytes.dropWhile (· ≠ equalsSign) = b :: value) : b = equalsSign := by
  have hhead := List.head?_dropWhile_not (p := (· ≠ equalsSign)) bytes
  rw [h] at hhead
  simpa using hhead

/-- Every option that is written out is spelled, unless it is a fault. -/
theorem spelled_of_long {bytes : List UInt8} (h : NoFault (parseLong bytes).items) :
    ∃ is waiting, Spelled ⟨dash :: dash :: bytes⟩ is waiting := by
  have hbytes := List.takeWhile_append_dropWhile (p := (· ≠ equalsSign)) (l := bytes)
  cases hflag : Flag.ofName? ⟨bytes.takeWhile (· ≠ equalsSign)⟩ with
  | none =>
      simp only [parseLong, hflag] at h
      exact absurd List.mem_cons_self (h _)
  | some flag =>
      have hlabel := congrArg OsString.bytes (Flag.ofName?_eq_some_iff.mp hflag)
      have hname : dash :: dash :: bytes.takeWhile (· ≠ equalsSign)
          = (OsString.ofString flag.label).bytes := hlabel
      cases hvalue : bytes.dropWhile (· ≠ equalsSign) with
      | nil =>
          rw [hvalue, List.append_nil] at hbytes
          rw [hbytes] at hname
          have ha : OsString.mk (dash :: dash :: bytes) = .ofString flag.label :=
            congrArg OsString.mk hname
          rw [ha]
          cases flag with
          | setting s => exact ⟨_, _, .setting s⟩
          | switch s => exact ⟨_, _, .switch s⟩
      | cons b value =>
          obtain rfl := eq_equalsSign_of_dropWhile hvalue
          cases flag with
          | setting s =>
              have ha : OsString.mk (dash :: dash :: bytes)
                  = .ofString (s.label ++ "=") ++ ⟨value⟩ := by
                rw [OsString.ofString_append, OsString.append_def, OsString.append_def, ← hbytes,
                  hvalue, List.append_assoc, ← List.cons_append, ← List.cons_append, hname]
                rfl
              rw [ha]
              exact ⟨_, _, .assigned s ⟨value⟩⟩
          | switch s =>
              simp only [parseLong, hflag, hvalue] at h
              exact absurd List.mem_cons_self (h _)

/-- Every argument is spelled, unless it is a fault. -/
theorem exists_spelled {a : OsString} (ha : a ≠ .ofString "--")
    (h : NoFault (parseArgument a).items) : ∃ is waiting, Spelled a is waiting := by
  by_cases hplain : a.IsPlain
  · exact ⟨_, _, .path hplain⟩
  · obtain ⟨bytes⟩ := a
    obtain ⟨hdash, hhead⟩ : bytes ≠ [dash] ∧ bytes.head? = some dash := by
      simpa [OsString.IsPlain] using hplain
    obtain ⟨rest, rfl⟩ := List.head?_eq_some_iff.mp hhead
    cases rest with
    | nil => exact absurd rfl hdash
    | cons b rest =>
        by_cases hb : b = dash
        · subst hb
          exact spelled_of_long h
        · rw [parseArgument_letters hb] at h
          rcases letters_of_noFault h with
            ⟨hletters, -⟩ | ⟨front, is, c, value, s, hsplit, hfront, hs⟩
          · exact ⟨_, _, .letters (List.cons_ne_nil _ _) hletters⟩
          · rw [hsplit]
            exact spelled_of_setting hfront hs value

theorem spelled_iff {a : OsString} {is : List Item} {waiting : Option Setting} :
    Spelled a is waiting ↔
      a ≠ .ofString "--" ∧ parseArgument a = ⟨is, waiting⟩ ∧ NoFault is := by
  constructor
  · exact fun h => ⟨h.ne_dashes, h.parseArgument, h.noFault⟩
  · rintro ⟨ha, hread, hnoFault⟩
    obtain ⟨is', waiting', h⟩ := exists_spelled ha (by rw [hread]; exact hnoFault)
    obtain ⟨rfl, rfl⟩ := Parsed.mk.inj (hread.symm.trans h.parseArgument)
    exact h

/-! ## All arguments -/

/-- What is spelled is what is read. -/
theorem Spells.items {arguments : List OsString} {is : List Item} (h : Spells arguments is) :
    items arguments = is ∧ NoFault is := by
  induction h with
  | nil => exact ⟨rfl, fun _ => List.not_mem_nil⟩
  | paths ps => exact ⟨by rw [CommandLine.items, if_pos rfl], fun e he => by simp at he⟩
  | alone ha _ ih =>
      obtain ⟨hdashes, hread, hnoFault⟩ := spelled_iff.mp ha
      obtain ⟨hitems, hmore⟩ := ih
      refine ⟨?_, noFault_append_iff.mpr ⟨hnoFault, hmore⟩⟩
      simp only [CommandLine.items, if_neg hdashes, hread, hitems]
  | value ha hv _ ih =>
      obtain ⟨hdashes, hread, hnoFault⟩ := spelled_iff.mp ha
      obtain ⟨hitems, hmore⟩ := ih
      refine ⟨?_, noFault_append_iff.mpr ⟨hnoFault, noFault_cons_iff.mpr ⟨nofun, hmore⟩⟩⟩
      simp only [CommandLine.items, if_neg hdashes, hread, isValue_eq_true_iff.mpr hv, if_true,
        hitems]

theorem spelled_parseArgument {a : OsString} (ha : a ≠ .ofString "--")
    (h : NoFault (parseArgument a).items) :
    Spelled a (parseArgument a).items (parseArgument a).waiting :=
  spelled_iff.mpr ⟨ha, rfl, h⟩

/-- **What the arguments ask for.**  Arguments are read as the items that they spell, and they
spell some unless one of them is a fault. -/
theorem spells_iff {arguments : List OsString} {is : List Item} :
    Spells arguments is ↔ items arguments = is ∧ NoFault is := by
  constructor
  · exact Spells.items
  · rintro ⟨rfl, h⟩
    fun_induction items arguments with
    | case1 => exact .nil
    | case2 rest => exact .paths rest
    | case3 a rest ha parsed hwaiting ih =>
        obtain ⟨hnoFault, hmore⟩ := noFault_append_iff.mp h
        have hspelled := spelled_parseArgument ha hnoFault
        rw [hwaiting] at hspelled
        exact .alone hspelled (ih hmore)
    | case4 a ha parsed s hwaiting =>
        exact absurd List.mem_cons_self ((noFault_append_iff.mp h).2 _)
    | case5 a ha parsed s hwaiting v rest hv ih =>
        obtain ⟨hnoFault, hmore⟩ := noFault_append_iff.mp h
        have hspelled := spelled_parseArgument ha hnoFault
        rw [hwaiting] at hspelled
        exact .value hspelled (isValue_eq_true_iff.mp hv) (ih (noFault_cons_iff.mp hmore).2)
    | case6 a ha parsed s hwaiting v rest hv =>
        exact absurd List.mem_cons_self ((noFault_append_iff.mp h).2 _)

/-! ## Commands -/

/-- The item can be asked for by a command that generates. -/
def Item.Generates : Item → Prop
  | .set .out value => value ≠ ⟨[]⟩
  | .set _ _ => True
  | .on .lastWins => True
  | .on _ => False
  | .path p => p ≠ ⟨[]⟩
  | .fault _ => False

/-- The paths among the items. -/
def pathsOf (is : List Item) : List OsString :=
  is.filterMap fun
    | .path p => some p
    | _ => none

/-- The values that the items give to an option. -/
def valuesOf (s : Setting) (is : List Item) : List OsString :=
  is.filterMap fun
    | .set s' value => if s' = s then some value else none
    | _ => none

section Cons

variable (is : List Item) (v : OsString) (s : Setting)

@[simp] theorem pathsOf_cons_path : pathsOf (.path v :: is) = v :: pathsOf is := rfl

@[simp] theorem pathsOf_cons_set : pathsOf (.set s v :: is) = pathsOf is := rfl

@[simp] theorem pathsOf_cons_on (w : Switch) : pathsOf (.on w :: is) = pathsOf is := rfl

@[simp] theorem valuesOf_cons_path : valuesOf s (.path v :: is) = valuesOf s is := rfl

@[simp] theorem valuesOf_cons_on (w : Switch) : valuesOf s (.on w :: is) = valuesOf s is := rfl

@[simp] theorem valuesOf_cons_set (s' : Setting) :
    valuesOf s (.set s' v :: is) = if s' = s then v :: valuesOf s is else valuesOf s is := by
  by_cases h : s' = s
  · simp [valuesOf, h]
  · simp [valuesOf, h]

end Cons

/-- What was given before and what is asked for together make the command. -/
@[mk_iff]
structure Given.Makes (g : Given) (is : List Item) (c : Command) : Prop where
  metadata : g.metadata.toList ++ pathsOf is = [c.metadata]
  source : (g.source.map OsString.ofString).toList ++ valuesOf .source is = [.ofString c.source]
  out : g.out.toList ++ valuesOf .out is = c.out.toList
  map : (g.map.map (OsString.ofString ·.name)).toList ++ valuesOf .map is
        = [.ofString c.map.name] ∨
    (g.map.map (OsString.ofString ·.name)).toList ++ valuesOf .map is = [] ∧ c.map = .sibling
  lastWins : g.lastWins.toNat + is.count (.on .lastWins) = c.lastWins.toNat

namespace Given

variable {g : Given} {is : List Item} {c : Command} {v : OsString}

theorem makes_cons_path :
    g.Makes (.path v :: is) c ↔ g.metadata = none ∧ { g with metadata := some v }.Makes is c := by
  cases h : g.metadata with
  | none => simp [makes_iff, h]
  | some p => simp [makes_iff, h]

theorem makes_cons_source :
    g.Makes (.set .source v :: is) c ↔
      g.source = none ∧ ∃ text, v = .ofString text ∧ { g with source := some text }.Makes is c := by
  cases h : g.source with
  | none =>
      constructor
      · intro hmakes
        have hvalue := hmakes.source
        simp only [h, valuesOf_cons_set] at hvalue
        obtain ⟨rfl, -⟩ := List.cons.inj hvalue
        exact ⟨rfl, c.source, rfl, by simpa [makes_iff, h] using hmakes⟩
      · rintro ⟨-, text, rfl, hmakes⟩
        simpa [makes_iff, h] using hmakes
  | some p => simp [makes_iff, h]

theorem makes_cons_out :
    g.Makes (.set .out v :: is) c ↔ g.out = none ∧ { g with out := some v }.Makes is c := by
  cases h : g.out with
  | none => simp [makes_iff, h]
  | some p =>
     cases hc : c.out <;> simp [makes_iff, h, hc]

theorem makes_cons_map :
    g.Makes (.set .map v :: is) c ↔
      g.map = none ∧ ∃ mode : MapMode, v = .ofString mode.name ∧
        { g with map := some mode }.Makes is c := by
  cases h : g.map with
  | none =>
      constructor
      · intro hmakes
        have hvalue := hmakes.map
        simp only [h, valuesOf_cons_set] at hvalue
        rcases hvalue with hvalue | ⟨hvalue, -⟩
        · obtain ⟨rfl, -⟩ := List.cons.inj hvalue
          exact ⟨rfl, c.map, rfl, by simpa [makes_iff, h] using hmakes⟩
        · cases hvalue
      · rintro ⟨-, mode, rfl, hmakes⟩
        simpa [makes_iff, h] using hmakes
  | some p => simp [makes_iff, h]

theorem makes_cons_lastWins :
    g.Makes (.on .lastWins :: is) c ↔
      g.lastWins = false ∧ { g with lastWins := true }.Makes is c := by
  cases h : g.lastWins with
  | false => simp [makes_iff, h, Nat.add_comm]
  | true =>
     cases hc : c.lastWins <;> simp [makes_iff, h, hc]

/-! ## Gathering -/

theorem finish_eq_generate_iff : g.finish = .ok (.generate c) ↔ g.Makes [] c := by
  have hpaths : pathsOf [] = [] := rfl
  have hvalues : ∀ s, valuesOf s [] = [] := fun _ => rfl
  have hlast : ∀ b b' : Bool, b.toNat = b'.toNat ↔ b = b' := by decide
  have hout : ∀ o o' : Option OsString, o.toList = o'.toList ↔ o = o' := by
    intro o o'
    cases o <;> cases o' <;> simp
  obtain ⟨metadata, source, out, map, lastWins⟩ := g
  cases metadata with
  | none => simp [finish, makes_iff, hpaths]
  | some metadata =>
      cases source with
      | none => simp [finish, makes_iff, hvalues]
      | some source =>
          have hmap : (map.map (OsString.ofString ·.name)).toList = [.ofString c.map.name] ∨
              (map.map (OsString.ofString ·.name)).toList = [] ∧ c.map = .sibling ↔
                c.map = map.getD .sibling := by
            cases map with
            | none => simp
            | some mode => simp [MapMode.ofString_name_inj, eq_comm]
          obtain ⟨metadata', source', out', map', lastWins'⟩ := c
          simp only [finish, makes_iff, hpaths, hvalues, List.append_nil, hmap, List.count_nil,
            Nat.add_zero, hlast, hout]
          simp [OsString.ofString_inj, eq_comm]

theorem set_source_eq_ok_iff {g' : Given} :
    g.set .source v = .ok g' ↔
      g.source = none ∧ ∃ text, v = .ofString text ∧ g' = { g with source := some text } := by
  simp only [← OsString.text?_eq_some_iff, set]
  cases g.source with
  | none => cases v.text? <;> simp [eq_comm]
  | some source => simp

theorem set_out_eq_ok_iff {g' : Given} :
    g.set .out v = .ok g' ↔ g.out = none ∧ v ≠ ⟨[]⟩ ∧ g' = { g with out := some v } := by
  simp only [set]
  cases g.out with
  | none => by_cases hv : v = ⟨[]⟩ <;> simp [hv, eq_comm]
  | some out => simp

theorem set_map_eq_ok_iff {g' : Given} :
    g.set .map v = .ok g' ↔
      g.map = none ∧ ∃ mode : MapMode, v = .ofString mode.name ∧
        g' = { g with map := some mode } := by
  simp only [← MapMode.ofName?_eq_some_iff, set]
  cases g.map with
  | none => cases MapMode.ofName? v <;> simp [eq_comm]
  | some mode => simp

theorem setPath_eq_ok_iff {g' : Given} :
    g.setPath v = .ok g' ↔
      g.metadata = none ∧ v ≠ ⟨[]⟩ ∧ g' = { g with metadata := some v } := by
  rw [setPath]
  cases g.metadata with
  | none => by_cases hv : v = ⟨[]⟩ <;> simp [hv, eq_comm]
  | some p => simp

theorem gather_cons_set {s : Setting} {r : Request} :
    g.gather (.set s v :: is) = .ok r ↔ ∃ g', g.set s v = .ok g' ∧ g'.gather is = .ok r := by
  rw [gather]
  cases g.set s v with
  | ok g' => simp
  | error e => simp

theorem gather_cons_path {r : Request} :
    g.gather (.path v :: is) = .ok r ↔ ∃ g', g.setPath v = .ok g' ∧ g'.gather is = .ok r := by
  rw [gather]
  cases g.setPath v with
  | ok g' => simp
  | error e => simp

theorem gather_eq_generate_iff :
    g.gather is = .ok (.generate c) ↔ (∀ i ∈ is, i.Generates) ∧ g.Makes is c := by
  induction is generalizing g with
  | nil => simp [gather, finish_eq_generate_iff]
  | cons i is ih =>
      rw [List.forall_mem_cons]
      cases i with
      | fault e => simp [gather, Item.Generates]
      | path p =>
          simp only [gather_cons_path, setPath_eq_ok_iff, makes_cons_path, ih, Item.Generates]
          constructor
          · rintro ⟨_, ⟨hnone, hp, rfl⟩, his, hmakes⟩
            exact ⟨⟨hp, his⟩, hnone, hmakes⟩
          · rintro ⟨⟨hp, his⟩, hnone, hmakes⟩
            exact ⟨_, ⟨hnone, hp, rfl⟩, his, hmakes⟩
      | set s v =>
          cases s with
          | source =>
              simp only [gather_cons_set, set_source_eq_ok_iff, makes_cons_source, ih,
                Item.Generates, true_and]
              constructor
              · rintro ⟨_, ⟨hnone, text, hv, rfl⟩, his, hmakes⟩
                exact ⟨his, hnone, text, hv, hmakes⟩
              · rintro ⟨his, hnone, text, hv, hmakes⟩
                exact ⟨_, ⟨hnone, text, hv, rfl⟩, his, hmakes⟩
          | out =>
              simp only [gather_cons_set, set_out_eq_ok_iff, makes_cons_out, ih, Item.Generates]
              constructor
              · rintro ⟨_, ⟨hnone, hv, rfl⟩, his, hmakes⟩
                exact ⟨⟨hv, his⟩, hnone, hmakes⟩
              · rintro ⟨⟨hv, his⟩, hnone, hmakes⟩
                exact ⟨_, ⟨hnone, hv, rfl⟩, his, hmakes⟩
          | map =>
              simp only [gather_cons_set, set_map_eq_ok_iff, makes_cons_map, ih, Item.Generates,
                true_and]
              constructor
              · rintro ⟨_, ⟨hnone, mode, hv, rfl⟩, his, hmakes⟩
                exact ⟨his, hnone, mode, hv, hmakes⟩
              · rintro ⟨his, hnone, mode, hv, hmakes⟩
                exact ⟨_, ⟨hnone, mode, hv, rfl⟩, his, hmakes⟩
      | on w =>
          cases w with
          | lastWins =>
              rw [gather, makes_cons_lastWins]
              cases hlast : g.lastWins with
              | false => simp [ih, Item.Generates]
              | true => simp
          | help => simp [gather, Item.Generates]
          | version => simp [gather, Item.Generates]

end Given

/-- The command gathers what is asked for, each thing once, and nothing else is asked for. -/
structure Command.Gathers (c : Command) (is : List Item) : Prop where
  generates : ∀ i ∈ is, i.Generates
  metadata : pathsOf is = [c.metadata]
  source : valuesOf .source is = [.ofString c.source]
  out : valuesOf .out is = c.out.toList
  /-- The source map is in a file of its own where nothing else is asked for. -/
  map : valuesOf .map is = [.ofString c.map.name] ∨ valuesOf .map is = [] ∧ c.map = .sibling
  lastWins : is.count (.on .lastWins) = c.lastWins.toNat

/-- The arguments ask for the command. -/
def Command.AskedBy (c : Command) (arguments : List OsString) : Prop :=
  ∃ is, Spells arguments is ∧ c.Gathers is

theorem Item.Generates.ne_fault {i : Item} (h : i.Generates) (e : UsageError) : i ≠ .fault e := by
  rintro rfl
  exact h

/-- **The command of a command line.**  A command is read exactly from the arguments that ask for
it. -/
theorem Request.ofArguments_eq_generate_iff {arguments : List OsString} {c : Command} :
    ofArguments arguments = .ok (.generate c) ↔ c.AskedBy arguments := by
  have hnothing : ∀ is, Given.nothing.Makes is c ∧ (∀ i ∈ is, i.Generates) ↔ c.Gathers is := by
    intro is
    constructor
    · rintro ⟨⟨hmetadata, hsource, hout, hmap, hlast⟩, hgenerates⟩
      exact ⟨hgenerates, hmetadata, hsource, hout, hmap, (Nat.zero_add _).symm.trans hlast⟩
    · rintro ⟨hgenerates, hmetadata, hsource, hout, hmap, hlast⟩
      exact ⟨⟨hmetadata, hsource, hout, hmap, (Nat.zero_add _).trans hlast⟩, hgenerates⟩
  rw [ofArguments, Given.gather_eq_generate_iff, and_comm, hnothing]
  constructor
  · exact fun h => ⟨_, spells_iff.mpr ⟨rfl, fun e he => (h.generates _ he).ne_fault e rfl⟩, h⟩
  · rintro ⟨is, hspells, hgathers⟩
    rw [(spells_iff.mp hspells).1]
    exact hgathers

end TypedStyles.CommandLine
