import FormatCheck.CommandLine.Options
import FormatCheck.Text.Bytes

/-! # Where options stand

Before `--`, options and other arguments may stand in any order among each other: only the order
of the options and the order of the others count. Each option has its own effect, the last
`--color=` wins, and the first option that cannot be read is the one that is reported. -/

namespace FormatCheck

/-! ## Options, one by one -/

theorem ColorMode.ofText?_eq_some_iff {text : String} {mode : ColorMode} :
    ofText? text = some mode ↔ text = mode.text := by
  constructor
  · intro h
    unfold ofText? at h
    split at h
    · cases h
      rfl
    · cases h
      rfl
    · cases h
      rfl
    · cases h
  · rintro rfl
    cases mode <;> rfl

namespace Options

/-- The argument starts with a dash and is longer than one byte. -/
def IsOption (argument : String) : Prop :=
  argument.toList.head? = some '-' ∧ 1 < Text.byteLength argument.toList

instance (argument : String) : Decidable (IsOption argument) :=
  inferInstanceAs (Decidable (_ ∧ _))

theorem isOption_iff {argument : String} : isOption argument = true ↔ IsOption argument := by
  have hdash : '-'.utf8Size = 1 := rfl
  unfold isOption IsOption
  split
  · rename_i c cs hcs
    have hc := c.utf8Size_pos
    rw [hcs, Text.byteLength_cons, Text.byteLength_cons, hdash]
    simp only [List.head?_cons, true_and, true_iff]
    omega
  · rename_i hshort
    simp only [Bool.false_eq_true, false_iff, not_and, Nat.not_lt]
    intro hhead
    cases hcs : argument.toList with
    | nil => simp [hcs] at hhead
    | cons d cs =>
        obtain rfl : d = '-' := by simpa [hcs] using hhead
        cases cs with
        | nil => simp [hdash]
        | cons c cs => exact absurd hcs (hshort c cs)

/-- The option chooses a colour mode, whether there is such a mode or not. -/
def IsColor (option : String) : Prop :=
  ∃ value, option = "--color=" ++ value

theorem colorValue?_eq_some_iff {option value : String} :
    colorValue? option = some value ↔ option = "--color=" ++ value := by
  unfold colorValue?
  rw [← String.toList_inj, String.toList_append]
  generalize "--color=".toList = key
  dsimp only
  constructor
  · intro h
    split at h
    · rename_i hprefix
      obtain ⟨rest, hrest⟩ := List.isPrefixOf_iff_prefix.mp hprefix
      rw [← hrest, List.drop_left] at h
      cases h
      rw [String.toList_ofList, hrest]
    · cases h
  · intro h
    have hprefix : key.isPrefixOf option.toList = true :=
      List.isPrefixOf_iff_prefix.mpr ⟨value.toList, h.symm⟩
    rw [if_pos hprefix, h, List.drop_left, String.ofList_toList]

theorem value_unique {option value other : String} (h : option = "--color=" ++ value)
    (hother : option = "--color=" ++ other) : value = other := by
  have hvalue := colorValue?_eq_some_iff.mpr h
  rw [colorValue?_eq_some_iff.mpr hother] at hvalue
  exact (Option.some.inj hvalue).symm

/-- The options that have no value. -/
def switches : List String :=
  ["--json", "--no-parallel", "-v", "--verbose"]

theorem not_isColor_of_mem_switches {option : String} (h : option ∈ switches) :
    ¬ IsColor option := by
  have hnone : ∀ name ∈ switches, colorValue? name = none := by decide
  rintro ⟨value, hoption⟩
  have hvalue := colorValue?_eq_some_iff.mpr hoption
  rw [hnone option h] at hvalue
  cases hvalue

/-- What an option sets. -/
inductive Sets (options : Options) : String → Options → Prop where
  | json : Sets options "--json" { options with json := true }
  | sequential : Sets options "--no-parallel" { options with parallel := false }
  | briefVerbose : Sets options "-v" { options with verbose := true }
  | verbose : Sets options "--verbose" { options with verbose := true }
  | color {option : String} (mode : ColorMode) (hoption : option = "--color=" ++ mode.text) :
      Sets options option { options with color := mode }

/-- Why an option cannot be read: it names no colour mode, or nothing is known of it. -/
inductive Refused (option : String) : OptionError → Prop where
  | color {value : String} (hoption : option = "--color=" ++ value)
      (hmode : ∀ mode : ColorMode, value ≠ mode.text) : Refused option (.invalidColor value)
  | unknown (hname : option ∉ switches) (hcolor : ¬ IsColor option) :
      Refused option (.unknown option)

variable {options result : Options} {option : String} {error : OptionError}

theorem sets_or_refused (options : Options) (option : String) :
    (∃ result, options.set option = .ok result ∧ Sets options option result) ∨
      ∃ error, options.set option = .error error ∧ Refused option error := by
  unfold set
  split
  · exact .inl ⟨_, rfl, .json⟩
  · exact .inl ⟨_, rfl, .sequential⟩
  · exact .inl ⟨_, rfl, .briefVerbose⟩
  · exact .inl ⟨_, rfl, .verbose⟩
  · rename_i hjson hparallel hbrief hverbose
    split
    · rename_i hvalue
      have hname : option ∉ switches := by
        simp only [switches, List.mem_cons, List.not_mem_nil, or_false, not_or]
        exact ⟨hjson, hparallel, hbrief, hverbose⟩
      refine .inr ⟨_, rfl, .unknown hname ?_⟩
      rintro ⟨value, hoption⟩
      rw [colorValue?_eq_some_iff.mpr hoption] at hvalue
      cases hvalue
    · rename_i value hvalue
      have hoption := colorValue?_eq_some_iff.mp hvalue
      split
      · rename_i mode hmode
        obtain rfl := ColorMode.ofText?_eq_some_iff.mp hmode
        exact .inl ⟨_, rfl, .color mode hoption⟩
      · rename_i hmode
        refine .inr ⟨_, rfl, .color hoption ?_⟩
        intro mode htext
        rw [ColorMode.ofText?_eq_some_iff.mpr htext] at hmode
        cases hmode

theorem Sets.known (h : Sets options option result) :
    option ∈ switches ∨ ∃ mode : ColorMode, option = "--color=" ++ mode.text := by
  cases h with
  | color mode hoption => exact .inr ⟨mode, hoption⟩
  | json | sequential | briefVerbose | verbose => exact .inl (by decide)

theorem Sets.not_refused (h : Sets options option result) : ¬ Refused option error := by
  intro hrefused
  rcases h.known with hname | ⟨mode, hmode⟩
  · cases hrefused with
    | color hoption _ => exact not_isColor_of_mem_switches hname ⟨_, hoption⟩
    | unknown hunknown _ => exact hunknown hname
  · cases hrefused with
    | color hoption hvalue => exact hvalue mode (value_unique hoption hmode)
    | unknown _ hcolor => exact hcolor ⟨_, hmode⟩

theorem Refused.unique {other : OptionError} (h : Refused option error)
    (hother : Refused option other) : error = other := by
  cases h with
  | color hoption hmode =>
      cases hother with
      | color hagain _ => rw [value_unique hoption hagain]
      | unknown _ hcolor => exact absurd ⟨_, hoption⟩ hcolor
  | unknown _ hcolor =>
      cases hother with
      | color hoption _ => exact absurd ⟨_, hoption⟩ hcolor
      | unknown _ _ => rfl

theorem sets_of_set (h : options.set option = .ok result) : Sets options option result := by
  rcases sets_or_refused options option with ⟨found, hset, hsets⟩ | ⟨error, hset, -⟩
  · rw [hset] at h
    cases h
    exact hsets
  · rw [hset] at h
    cases h

theorem set_eq_error_iff : options.set option = .error error ↔ Refused option error := by
  rcases sets_or_refused options option with ⟨found, hset, hsets⟩ | ⟨found, hset, hrefused⟩
  · rw [hset]
    exact ⟨nofun, fun h => absurd h hsets.not_refused⟩
  · rw [hset, Except.error.injEq]
    constructor
    · rintro rfl
      exact hrefused
    · exact hrefused.unique

/-! ## Options, one after the other -/

/-- The mode that options choose: that of the last one that chooses any, or else the one that
was chosen before. -/
inductive LastColor (start : ColorMode) (given : List String) : ColorMode → Prop where
  | kept (h : ∀ option ∈ given, ¬ IsColor option) : LastColor start given start
  | chosen {mode : ColorMode} (before behind : List String)
      (hgiven : given = before ++ ("--color=" ++ mode.text) :: behind)
      (h : ∀ option ∈ behind, ¬ IsColor option) : LastColor start given mode

theorem LastColor.append {start middle last : ColorMode} {first second : List String}
    (hfirst : LastColor start first middle) (hsecond : LastColor middle second last) :
    LastColor start (first ++ second) last := by
  -- A choice in the second part hides all those in the first.
  cases hsecond with
  | kept hnone =>
      cases hfirst with
      | kept hkept => exact .kept (List.forall_mem_append.mpr ⟨hkept, hnone⟩)
      | chosen before behind hgiven hbehind =>
          refine .chosen before (behind ++ second) ?_
            (List.forall_mem_append.mpr ⟨hbehind, hnone⟩)
          rw [hgiven, List.append_assoc, List.cons_append]
  | chosen before behind hgiven hbehind =>
      refine .chosen (first ++ before) behind ?_ hbehind
      rw [hgiven, List.append_assoc]

/-- What options make of those that were set before. -/
structure SetBy (start : Options) (given : List String) (result : Options) : Prop where
  json : result.json = true ↔ start.json = true ∨ "--json" ∈ given
  verbose : result.verbose = true ↔ start.verbose = true ∨ "-v" ∈ given ∨ "--verbose" ∈ given
  parallel : result.parallel = false ↔ start.parallel = false ∨ "--no-parallel" ∈ given
  color : LastColor start.color given result.color

namespace SetBy

theorem nil (options : Options) : SetBy options [] options where
  json := by simp
  verbose := by simp
  parallel := by simp
  color := .kept (by simp)

theorem append {start middle last : Options} {first second : List String}
    (hfirst : SetBy start first middle) (hsecond : SetBy middle second last) :
    SetBy start (first ++ second) last where
  json := by rw [hsecond.json, hfirst.json, List.mem_append, or_assoc]
  verbose := by
    rw [hsecond.verbose, hfirst.verbose, List.mem_append, List.mem_append]
    grind
  parallel := by rw [hsecond.parallel, hfirst.parallel, List.mem_append, or_assoc]
  color := hfirst.color.append hsecond.color

end SetBy

theorem Sets.setBy {start : Options} (h : Sets start option result) :
    SetBy start [option] result := by
  have hplain : ∀ {name : String}, name ∈ switches → ∀ color, LastColor color [name] color := by
    intro name hname color
    exact .kept (List.forall_mem_singleton.mpr (not_isColor_of_mem_switches hname))
  cases h with
  | json | sequential | briefVerbose | verbose =>
      exact ⟨by simp, by simp, by simp, hplain (by decide) _⟩
  | color mode hoption =>
      have hother : ∀ name ∈ switches, name ∉ [option] := by
        intro name hname hmem
        rw [List.mem_singleton] at hmem
        exact not_isColor_of_mem_switches hname ⟨_, hmem.trans hoption⟩
      simp only [switches, List.forall_mem_cons] at hother
      obtain ⟨hjson, hparallel, hbrief, hverbose, -⟩ := hother
      refine ⟨by simp [hjson], by simp [hbrief, hverbose], by simp [hparallel], ?_⟩
      exact .chosen [] [] (by rw [hoption, List.nil_append]) (by simp)

theorem setBy_of_foldlM {start : Options} {given : List String}
    (h : given.foldlM set start = .ok result) : SetBy start given result := by
  induction given generalizing start with
  | nil =>
      cases h
      exact .nil _
  | cons option given ih =>
      rw [List.foldlM_cons] at h
      cases hset : start.set option with
      | error error =>
          rw [hset] at h
          cases h
      | ok next =>
          rw [hset] at h
          exact (sets_of_set hset).setBy.append (ih h)

/-- The first option that cannot be read, and why. -/
def FirstRefused (given : List String) (error : OptionError) : Prop :=
  ∃ before option behind, given = before ++ option :: behind ∧
    (∀ earlier ∈ before, ∀ other, ¬ Refused earlier other) ∧ Refused option error

theorem firstRefused_cons {given : List String} :
    FirstRefused (option :: given) error ↔
      Refused option error ∨ (∀ other, ¬ Refused option other) ∧ FirstRefused given error := by
  constructor
  · rintro ⟨before, first, behind, hgiven, hbefore, hfirst⟩
    cases before with
    | nil =>
        obtain ⟨rfl, rfl⟩ := List.cons.inj hgiven
        exact .inl hfirst
    | cons _ before =>
        obtain ⟨rfl, rfl⟩ := List.cons.inj hgiven
        obtain ⟨hoption, hbefore⟩ := List.forall_mem_cons.mp hbefore
        exact .inr ⟨hoption, before, first, behind, rfl, hbefore, hfirst⟩
  · rintro (hoption | ⟨hoption, before, first, behind, rfl, hbefore, hfirst⟩)
    · exact ⟨[], option, given, rfl, by simp, hoption⟩
    · exact ⟨option :: before, first, behind, rfl, List.forall_mem_cons.mpr ⟨hoption, hbefore⟩,
        hfirst⟩

theorem foldlM_eq_error_iff {start : Options} {given : List String} :
    given.foldlM set start = .error error ↔ FirstRefused given error := by
  induction given generalizing start with
  | nil => simp [FirstRefused, pure, Except.pure]
  | cons option given ih =>
      -- Whether an option is refused does not depend on what was set before it.
      have hoption : ∀ other, Refused option other ↔ start.set option = .error other :=
        fun _ => set_eq_error_iff.symm
      rw [List.foldlM_cons, firstRefused_cons]
      cases hset : start.set option with
      | ok next => simp [hoption, hset, ih, bind, Except.bind]
      | error found => simp [hoption, hset, bind, Except.bind]

/-! ## Arguments -/

/-- The arguments among which options are looked for: those before the first `--`. -/
def head (arguments : List String) : List String :=
  arguments.takeWhile (· ≠ "--")

/-- The arguments behind the first `--`, which are taken as they are. -/
def tail (arguments : List String) : List String :=
  (arguments.dropWhile (· ≠ "--")).drop 1

/-- The options among the arguments, in their order. -/
def given (arguments : List String) : List String :=
  (head arguments).filter IsOption

/-- The arguments before the first `--` that are no options, in their order. -/
def others (arguments : List String) : List String :=
  (head arguments).filter (¬ IsOption ·)

theorem head_cons {argument : String} (h : argument ≠ "--") (rest : List String) :
    head (argument :: rest) = argument :: head rest := by
  simp [head, h]

theorem tail_cons {argument : String} (h : argument ≠ "--") (rest : List String) :
    tail (argument :: rest) = tail rest := by
  simp [tail, h]

/-- Where the options stand among the other arguments does not count. -/
theorem ofArgumentsFrom_eq (options : Options) (arguments : List String) :
    options.ofArgumentsFrom arguments =
      ((given arguments).foldlM set options).map fun result =>
        (result, others arguments ++ tail arguments) := by
  fun_induction ofArgumentsFrom options arguments with
  | case1 options => rfl
  | case2 options rest => rfl
  | case3 options argument rest hne hoption next hset ih =>
      have hgiven : IsOption argument := isOption_iff.mp hoption
      rw [ih]
      simp [given, others, head_cons hne, tail_cons hne, hgiven, hset, bind, Except.bind]
  | case4 options argument rest hne hoption error hset =>
      have hgiven : IsOption argument := isOption_iff.mp hoption
      simp [given, head_cons hne, hgiven, hset, bind, Except.bind, Except.map]
  | case5 options argument rest hne hoption ih =>
      have hother : ¬ IsOption argument := mt isOption_iff.mpr hoption
      have hgivenRest : given (argument :: rest) = given rest := by
        simp [given, head_cons hne, hother]
      have hothersRest : others (argument :: rest) = argument :: others rest := by
        simp [others, head_cons hne, hother]
      rw [ih, hgivenRest, hothersRest, tail_cons hne]
      cases (given rest).foldlM set options <;> rfl

end Options

/-- Options may stand anywhere before `--`. What comes out depends on the options, on the other
arguments and on what follows `--`, each in their order, and not on how the options stand among
the others. The others come out as they are, every option has its effect, the last colour mode
wins, and the first option that cannot be read is the one that is refused. -/
theorem options_stand_anywhere (arguments : List String) :
    (∀ moved, Options.given moved = Options.given arguments →
      Options.others moved = Options.others arguments →
      Options.tail moved = Options.tail arguments →
      Options.ofArguments moved = Options.ofArguments arguments) ∧
    (∀ options operands, Options.ofArguments arguments = .ok (options, operands) →
      operands = Options.others arguments ++ Options.tail arguments ∧
      (options.json = true ↔ "--json" ∈ Options.given arguments) ∧
      (options.verbose = true ↔
        "-v" ∈ Options.given arguments ∨ "--verbose" ∈ Options.given arguments) ∧
      (options.parallel = false ↔ "--no-parallel" ∈ Options.given arguments) ∧
      Options.LastColor .auto (Options.given arguments) options.color) ∧
    ∀ error, Options.ofArguments arguments = .error error ↔
      Options.FirstRefused (Options.given arguments) error := by
  refine ⟨?_, ?_, ?_⟩
  · intro moved hgiven hothers htail
    rw [Options.ofArguments, Options.ofArguments, Options.ofArgumentsFrom_eq,
      Options.ofArgumentsFrom_eq, hgiven, hothers, htail]
  · intro options operands h
    rw [Options.ofArguments, Options.ofArgumentsFrom_eq] at h
    cases hfold : (Options.given arguments).foldlM Options.set {} with
    | error error =>
        rw [hfold] at h
        cases h
    | ok result =>
        rw [hfold] at h
        cases h
        have hset := Options.setBy_of_foldlM hfold
        exact ⟨rfl, by simpa using hset.json, by simpa using hset.verbose,
          by simpa using hset.parallel, hset.color⟩
  · intro error
    rw [Options.ofArguments, Options.ofArgumentsFrom_eq, ← Options.foldlM_eq_error_iff]
    cases (Options.given arguments).foldlM Options.set {} <;> simp [Except.map]

/-- Three options are moved among the arguments, and the `--json` behind `--` is none. Of two
options that cannot be read the first is refused. -/
theorem options_stand_anywhere_moved :
    let arguments := ["%d", "--color=always", "-", "-v", "--color=never", "", "--", "--json", "--"]
    let moved := ["--color=always", "-v", "%d", "-", "", "--color=never", "--", "--json", "--"]
    Options.ofArguments moved = Options.ofArguments arguments ∧
      Options.ofArguments arguments =
        .ok (⟨false, .never, true, true⟩, ["%d", "-", "", "--json", "--"]) ∧
      "--json" ∉ Options.given arguments ∧
      Options.ofArguments ["-", "--color=red", "--fast"] = .error (.invalidColor "red") := by
  intro arguments moved
  have hok : Options.ofArguments arguments =
      .ok (⟨false, .never, true, true⟩, ["%d", "-", "", "--json", "--"]) := rfl
  have hrefused : Options.FirstRefused (Options.given ["-", "--color=red", "--fast"])
      (.invalidColor "red") := by
    refine ⟨[], "--color=red", ["--fast"], by decide +kernel, by simp, .color rfl ?_⟩
    intro mode
    cases mode <;> decide
  obtain ⟨hmoved, hset, -⟩ := options_stand_anywhere arguments
  obtain ⟨-, hjson, -⟩ := hset _ _ hok
  refine ⟨hmoved moved (by decide +kernel) (by decide +kernel) (by decide +kernel), hok, ?_, ?_⟩
  · exact fun h => nomatch hjson.mpr h
  · exact ((options_stand_anywhere _).2.2 _).mpr hrefused

end FormatCheck
