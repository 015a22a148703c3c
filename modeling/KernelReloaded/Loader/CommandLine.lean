/-
The kernel command line of the boot page.

`getKernelParameter` joins the configured parameters, `real_loader` copies the
result into the boot page, rewrites it with the initrd bounds and finally
appends `ip=off`.  Every store goes into a char array of the size the source
gives it.  How `pccard_type` is found is left open: it is a parameter.
-/

import KernelReloaded.Core.CText
import KernelReloaded.Loader.BootLayout
import KernelReloaded.Loader.Configuration

namespace KernelReloaded.Boot

open CText

/-! ### Assembling the line -/

/-- The two text settings, each in a char array of `MAX_INPUT_LEN`. -/
structure KernelSettings where
  kernelParameter : Text
  videoParameter : Text
  kernelParameter_fits : kernelParameter.length ≤ maxInputLen - 1
  videoParameter_fits : videoParameter.length ≤ maxInputLen - 1
  kernelParameter_nulFree : '\x00' ∉ kernelParameter
  videoParameter_nulFree : '\x00' ∉ videoParameter

/-- The array `fullKernelParameter` keeps what the call before left in it. -/
structure FullKernelParameter where
  chars : CharArray
  size : chars.length = maxInputLen + maxInputLen

def videoOption : Text := "video=".toList

def ipOption : Text := "ip=".toList

def noIp : Text := "ip=off".toList

def ipOff : Text := ' ' :: noIp

theorem ipOff_length : ipOff.length = 7 := rfl

def getKernelParameter (settings : KernelSettings)
    (full : FullKernelParameter) : Option CharArray := do
  let copied ← strcpy full.chars 0 settings.kernelParameter
  let n := (cstring copied).length
  if strstr settings.kernelParameter videoOption = none then
    let separated ← storeChars copied n [' ']
    strcpy separated (n + 1) settings.videoParameter
  else
    return copied

/-- The search loop of `hasCommandlineOption`; each round moves `p` on, so
`rounds` need not exceed the length of the line by more than one. -/
def findOption (cmdline option : Text) : (rounds p : Nat) → Bool
  | 0, _ => false
  | rounds + 1, p =>
      match strstr (cmdline.drop p) option with
      | none => false
      | some offset =>
          if p + offset = 0 ∨ cmdline[p + offset - 1]? = some ' ' then
            true
          else
            findOption cmdline option rounds (p + offset + option.length)

def hasCommandlineOption (cmdline option : Text) : Bool :=
  findOption cmdline option (cmdline.length + 1) 0

def rdStart : Text := "rd_start=0x".toList

def rdSize : Text := "rd_size=0x".toList

def initrdBounds (initrd : Initrd) : Text :=
  ' ' :: (rdStart ++ formatHex8 initrd.start) ++
    ' ' :: (rdSize ++ formatHex8 initrd.size)

def printInitrdBounds (commandline : CharArray) (parameter : Text) :
    Option Initrd → Option CharArray
  | none => some commandline
  | some initrd =>
      snprintf commandline 0 (2 * maxInputLen)
        (parameter ++ initrdBounds initrd)

/-- `bootpage.commandline` as `real_loader` hands it to the kernel. -/
def bootCommandline (settings : KernelSettings) (full : FullKernelParameter)
    (initrd : Option Initrd) (pccardType : Nat) : Option CharArray := do
  let parameter ← getKernelParameter settings full
  let copied ← strcpy (List.replicate (2 * maxInputLen) '\x00') 0
    (cstring parameter)
  let commandline ← printInitrdBounds copied (cstring parameter) initrd
  if pccardType = 0 ∧
      hasCommandlineOption (cstring commandline) ipOption = false then
    let used := (cstring commandline).length
    snprintf commandline used (2 * maxInputLen - used) ipOff
  else
    return commandline

/-! ### The search loop finds exactly the tokens -/

private theorem option_char_of_prefix {cmdline option : Text}
    {position index : Nat} (occurs : option <+: cmdline.drop position)
    (inside : index < option.length) :
    cmdline[position + index]? = option[index]? := by
  obtain ⟨behind, same⟩ := occurs
  rw [← List.getElem?_drop, ← same, List.getElem?_append_left inside]

theorem findOption_iff {cmdline option : Text} (nonempty : option ≠ [])
    (spaceless : ' ' ∉ option) (rounds p : Nat)
    (enough : cmdline.length < rounds + p) :
    findOption cmdline option rounds p = true ↔
      ∃ offset, p ≤ offset ∧ TokenAt cmdline option offset := by
  have positive : 0 < option.length := List.length_pos_iff.mpr nonempty
  induction rounds generalizing p with
  | zero =>
      simp only [findOption, Bool.false_eq_true, false_iff]
      rintro ⟨offset, behind, occurs, -⟩
      rw [List.drop_eq_nil_of_le (by omega), List.prefix_nil] at occurs
      exact nonempty occurs
  | succ rounds ih =>
      rw [findOption]
      cases search : strstr (cmdline.drop p) option with
      | none =>
          simp only [Bool.false_eq_true, false_iff]
          rintro ⟨offset, behind, occurs, -⟩
          apply strstr_eq_none.mp search (offset - p)
          rw [List.drop_drop, show p + (offset - p) = offset by omega]
          exact occurs
      | some position =>
          obtain ⟨occurs, first⟩ := strstr_eq_some search
          rw [List.drop_drop] at occurs
          dsimp only
          split <;> rename_i boundary
          · simp only [true_iff]
            exact ⟨p + position, Nat.le_add_right _ _, occurs, boundary⟩
          · refine (ih (p + position + option.length) (by omega)).trans ?_
            constructor
            · rintro ⟨offset, behind, token⟩
              exact ⟨offset, by omega, token⟩
            · rintro ⟨offset, behind, token⟩
              refine ⟨offset, ?_, token⟩
              -- A token inside the occurrence would need a space in the option.
              by_contra inside
              rcases Nat.lt_trichotomy offset (p + position) with
                before | here | after
              · apply first (offset - p) (by omega)
                rw [List.drop_drop, show p + (offset - p) = offset by omega]
                exact token.1
              · exact boundary (here ▸ token.2)
              · rcases token.2 with zero | space
                · omega
                · have char := option_char_of_prefix occurs
                    (show offset - 1 - (p + position) < option.length by omega)
                  rw [show p + position + (offset - 1 - (p + position)) =
                    offset - 1 by omega, space] at char
                  exact spaceless (List.mem_of_getElem? char.symm)

theorem hasCommandlineOption_iff {cmdline option : Text}
    (nonempty : option ≠ []) (spaceless : ' ' ∉ option) :
    hasCommandlineOption cmdline option = true ↔ HasToken cmdline option := by
  rw [hasCommandlineOption, findOption_iff nonempty spaceless _ _ (by omega),
    hasToken_iff_tokenAt spaceless]
  simp only [Nat.zero_le, true_and]

theorem hasCommandlineOption_ip (cmdline : Text) :
    hasCommandlineOption cmdline ipOption = false ↔
      ¬ HasToken cmdline ipOption := by
  rw [← hasCommandlineOption_iff (by decide) (by decide), Bool.not_eq_true]

/-! ### What the arrays hold -/

def fullParameter (settings : KernelSettings) : Text :=
  if strstr settings.kernelParameter videoOption = none then
    settings.kernelParameter ++ ' ' :: settings.videoParameter
  else
    settings.kernelParameter

theorem fullParameter_length (settings : KernelSettings) :
    (fullParameter settings).length < 2 * maxInputLen := by
  have kernelFits := settings.kernelParameter_fits
  have videoFits := settings.videoParameter_fits
  have size : maxInputLen = 1024 := rfl
  rw [fullParameter]
  split
  · rw [List.length_append, List.length_cons]
    omega
  · omega

theorem fullParameter_nulFree (settings : KernelSettings) :
    '\x00' ∉ fullParameter settings := by
  rw [fullParameter]
  split
  · simp [settings.kernelParameter_nulFree, settings.videoParameter_nulFree]
  · exact settings.kernelParameter_nulFree

theorem getKernelParameter_holds (settings : KernelSettings)
    (full : FullKernelParameter) :
    ∃ array, getKernelParameter settings full = some array ∧
      Holds array (fullParameter settings) := by
  have kernelFits := settings.kernelParameter_fits
  have size : maxInputLen = 1024 := rfl
  have capacity := full.size
  obtain ⟨copied, copies, holds, copiedSize⟩ := strcpy_holds
    (List.nil_prefix (l := full.chars))
    (show '\x00' ∉ [] ++ settings.kernelParameter from
      settings.kernelParameter_nulFree)
    (by rw [List.length_nil]; omega)
  rw [List.length_nil] at copies
  rw [List.nil_append] at holds
  have total := fullParameter_length settings
  have nulFree := fullParameter_nulFree settings
  simp only [getKernelParameter, copies, Option.bind_eq_bind, Option.bind_some,
    holds.cstring_eq]
  rw [fullParameter] at total nulFree ⊢
  split <;> rename_i search
  · rw [if_pos search] at total nulFree
    rw [List.length_append, List.length_cons] at total
    -- The blank replaces the NUL behind the kernel parameter.
    obtain ⟨separated, separates, front⟩ : ∃ separated,
        storeChars copied settings.kernelParameter.length [' '] =
            some separated ∧
          settings.kernelParameter ++ [' '] <+: separated := by
      rw [storeChars, if_pos (by rw [List.length_singleton]; omega)]
      refine ⟨_, rfl, ?_⟩
      have kept : settings.kernelParameter <+: copied :=
        (List.prefix_append _ _).trans holds.stored
      rw [← List.prefix_iff_eq_take.mp kept]
      exact List.prefix_append _ _
    have separatedSize := storeChars_length separates
    obtain ⟨array, stores, arrayHolds, -⟩ := strcpy_holds front
      (show '\x00' ∉ settings.kernelParameter ++ [' '] ++
          settings.videoParameter by simpa using nulFree)
      (by rw [List.length_append, List.length_singleton]; omega)
    refine ⟨array, ?_, by simpa using arrayHolds⟩
    simpa [separates] using stores
  · exact ⟨copied, rfl, holds⟩

def initrdText : Option Initrd → Text
  | none => []
  | some initrd => initrdBounds initrd

theorem initrdText_length (initrd : Option Initrd) :
    (initrdText initrd).length = if initrd.isSome then 39 else 0 := by
  cases initrd with
  | none => rfl
  | some initrd =>
      rw [initrdText, initrdBounds, List.length_append, List.length_cons,
        List.length_cons, List.length_append, List.length_append,
        formatHex8_length, formatHex8_length]
      rfl

theorem initrdText_nulFree (initrd : Option Initrd) :
    '\x00' ∉ initrdText initrd := by
  cases initrd with
  | none => exact List.not_mem_nil
  | some initrd =>
      intro member
      simp only [initrdText, initrdBounds, List.mem_append, List.mem_cons]
        at member
      rcases member with (blank | label | digit) | blank | label | digit
      · cases blank
      · exact absurd label (by decide)
      · exact (mem_formatHex8 digit).2 rfl
      · cases blank
      · exact absurd label (by decide)
      · exact (mem_formatHex8 digit).2 rfl

def cutLine (settings : KernelSettings) (initrd : Option Initrd) : Text :=
  (fullParameter settings ++ initrdText initrd).take (2 * maxInputLen - 1)

theorem cutLine_length (settings : KernelSettings) (initrd : Option Initrd) :
    (cutLine settings initrd).length < 2 * maxInputLen := by
  have size : maxInputLen = 1024 := rfl
  rw [cutLine, List.length_take]
  omega

theorem cutLine_none (settings : KernelSettings) :
    cutLine settings none = fullParameter settings := by
  have fits := fullParameter_length settings
  rw [cutLine, initrdText, List.append_nil, List.take_of_length_le (by omega)]

def handedLine (settings : KernelSettings) (initrd : Option Initrd)
    (pccardType : Nat) : Text :=
  if pccardType = 0 ∧ ¬ HasToken (cutLine settings initrd) ipOption then
    cutLine settings initrd ++
      ipOff.take (2 * maxInputLen - (cutLine settings initrd).length - 1)
  else
    cutLine settings initrd

theorem printInitrdBounds_holds (settings : KernelSettings)
    (initrd : Option Initrd) (copied : CharArray)
    (capacity : copied.length = 2 * maxInputLen)
    (holds : Holds copied (fullParameter settings)) :
    ∃ commandline,
      printInitrdBounds copied (fullParameter settings) initrd =
          some commandline ∧
        Holds commandline (cutLine settings initrd) ∧
        commandline.length = 2 * maxInputLen := by
  cases initrd with
  | none =>
      rw [cutLine_none]
      exact ⟨copied, rfl, holds, capacity⟩
  | some initrd =>
      have nulFree : '\x00' ∉ [] ++
          (fullParameter settings ++ initrdBounds initrd) := by
        rw [List.nil_append, List.mem_append, not_or]
        exact ⟨fullParameter_nulFree settings,
          initrdText_nulFree (some initrd)⟩
      obtain ⟨commandline, prints, holdsLine, size⟩ := snprintf_holds
        (2 * maxInputLen) (List.nil_prefix (l := copied)) nulFree
        (by decide) (by rw [List.length_nil]; omega)
      exact ⟨commandline, prints, holdsLine, size.trans capacity⟩

theorem bootCommandline_holds (settings : KernelSettings)
    (full : FullKernelParameter) (initrd : Option Initrd) (pccardType : Nat) :
    ∃ commandline,
      bootCommandline settings full initrd pccardType = some commandline ∧
        Holds commandline (handedLine settings initrd pccardType) ∧
        commandline.length = 2 * maxInputLen := by
  obtain ⟨parameter, joins, parameterHolds⟩ :=
    getKernelParameter_holds settings full
  obtain ⟨copied, copies, copiedHolds, copiedSize⟩ := strcpy_holds
    (List.nil_prefix (l := List.replicate (2 * maxInputLen) '\x00'))
    (show '\x00' ∉ [] ++ fullParameter settings from
      fullParameter_nulFree settings)
    (by
      rw [List.length_nil, List.length_replicate, Nat.zero_add]
      exact fullParameter_length settings)
  rw [List.length_nil] at copies
  rw [List.nil_append] at copiedHolds
  rw [List.length_replicate] at copiedSize
  obtain ⟨commandline, prints, holds, capacity⟩ :=
    printInitrdBounds_holds settings initrd copied copiedSize copiedHolds
  have started : bootCommandline settings full initrd pccardType =
      if pccardType = 0 ∧
          ¬ HasToken (cutLine settings initrd) ipOption then
        snprintf commandline (cutLine settings initrd).length
          (2 * maxInputLen - (cutLine settings initrd).length) ipOff
      else
        some commandline := by
    simp only [bootCommandline, joins, parameterHolds.cstring_eq, copies,
      prints, Option.bind_eq_bind, Option.bind_some, holds.cstring_eq,
      hasCommandlineOption_ip, Option.pure_def]
  have shorter := holds.length_lt
  rw [started, handedLine]
  split
  · obtain ⟨final, appends, finalHolds, finalSize⟩ := snprintf_holds
      (2 * maxInputLen - (cutLine settings initrd).length)
      ((List.prefix_append _ _).trans holds.stored)
      (show '\x00' ∉ cutLine settings initrd ++ ipOff by
        rw [List.mem_append, not_or]
        exact ⟨holds.nulFree, by decide⟩)
      (by omega) (by omega)
    exact ⟨final, appends, finalHolds, finalSize.trans capacity⟩
  · exact ⟨commandline, rfl, holds, capacity⟩

/-! ### The line as it should be -/

/-- The kernel parameter, with the video parameter unless a token of the
kernel parameter is a video option. -/
def parameterSpec (settings : KernelSettings) : Text :=
  if HasToken settings.kernelParameter videoOption then
    settings.kernelParameter
  else
    settings.kernelParameter ++ ' ' :: settings.videoParameter

def commandlineSpec (settings : KernelSettings) (initrd : Option Initrd)
    (pccardType : Nat) : Text :=
  let line := parameterSpec settings ++ initrdText initrd
  if pccardType = 0 ∧ ¬ HasToken line ipOption then line ++ ipOff else line

/-- The array handed to the kernel holds the specified line and its NUL. -/
def CommandlineExact (settings : KernelSettings) (full : FullKernelParameter)
    (initrd : Option Initrd) (pccardType : Nat) : Prop :=
  ∃ commandline,
    bootCommandline settings full initrd pccardType = some commandline ∧
      commandline.length = 2 * maxInputLen ∧ '\x00' ∈ commandline ∧
      cstring commandline = commandlineSpec settings initrd pccardType

theorem commandlineExact_iff (settings : KernelSettings)
    (full : FullKernelParameter) (initrd : Option Initrd) (pccardType : Nat) :
    CommandlineExact settings full initrd pccardType ↔
      handedLine settings initrd pccardType =
        commandlineSpec settings initrd pccardType := by
  obtain ⟨commandline, assembled, holds, size⟩ :=
    bootCommandline_holds settings full initrd pccardType
  constructor
  · rintro ⟨other, assembledOther, -, -, same⟩
    rw [assembled] at assembledOther
    obtain rfl := Option.some.inj assembledOther
    rw [← same, holds.cstring_eq]
  · intro same
    refine ⟨commandline, assembled, size, ?_, holds.cstring_eq.trans same⟩
    exact holds.stored.subset (by simp)

theorem hasToken_append_initrdText (line : Text) (initrd : Option Initrd) :
    HasToken (line ++ initrdText initrd) ipOption ↔
      HasToken line ipOption := by
  cases initrd with
  | none => rw [initrdText, List.append_nil]
  | some initrd =>
      have noOption (label : Text) (word : Nat) (labelled : label = rdStart ∨
          label = rdSize) : ¬ HasToken (label ++ formatHex8 word) ipOption := by
        rw [hasToken_of_spaceless]
        · rcases labelled with rfl | rfl <;>
            · rintro ⟨behind, same⟩
              exact absurd (List.cons.inj same).1 (by decide)
        · intro member
          rcases List.mem_append.mp member with inLabel | inDigits
          · rcases labelled with rfl | rfl <;> exact absurd inLabel (by decide)
          · exact (mem_formatHex8 inDigits).1 rfl
      rw [initrdText, initrdBounds, ← List.append_assoc,
        hasToken_append_space, hasToken_append_space]
      simp only [noOption rdStart _ (.inl rfl), noOption rdSize _ (.inr rfl),
        or_false]

/-! ### When the two agree -/

def IpGiven (settings : KernelSettings) : Prop :=
  HasToken settings.kernelParameter ipOption ∨
    ¬ HasToken settings.kernelParameter videoOption ∧
      HasToken settings.videoParameter ipOption

instance (settings : KernelSettings) : Decidable (IpGiven settings) :=
  inferInstanceAs (Decidable (_ ∨ _))

theorem hasToken_spec_iff_ipGiven (settings : KernelSettings)
    (initrd : Option Initrd) :
    HasToken (parameterSpec settings ++ initrdText initrd) ipOption ↔
      IpGiven settings := by
  rw [hasToken_append_initrdText, IpGiven, parameterSpec]
  split <;> rename_i given
  · simp only [given, not_true_eq_false, false_and, or_false]
  · rw [hasToken_append_space]
    simp only [given, not_false_eq_true, true_and]

def lineLength (settings : KernelSettings) (initrd : Option Initrd)
    (pccardType : Nat) : Nat :=
  settings.kernelParameter.length +
    (if HasToken settings.kernelParameter videoOption then 0
      else settings.videoParameter.length + 1) +
    (if initrd.isSome then 39 else 0) +
    (if pccardType = 0 ∧ ¬ IpGiven settings then 7 else 0)

theorem commandlineSpec_length (settings : KernelSettings)
    (initrd : Option Initrd) (pccardType : Nat) :
    (commandlineSpec settings initrd pccardType).length =
      lineLength settings initrd pccardType := by
  have parameterLength : (parameterSpec settings).length =
      settings.kernelParameter.length +
        (if HasToken settings.kernelParameter videoOption then 0
          else settings.videoParameter.length + 1) := by
    rw [parameterSpec]
    split
    · rfl
    · rw [List.length_append, List.length_cons]
  have ipLength := ipOff_length
  simp only [commandlineSpec, lineLength, hasToken_spec_iff_ipGiven]
  split
  · rw [List.length_append, List.length_append, parameterLength,
      initrdText_length, ipLength]
  · rw [List.length_append, parameterLength, initrdText_length]
    rfl

theorem handedLine_length (settings : KernelSettings)
    (initrd : Option Initrd) (pccardType : Nat) :
    (handedLine settings initrd pccardType).length < 2 * maxInputLen := by
  have fits := cutLine_length settings initrd
  rw [handedLine]
  split
  · rw [List.length_append, List.length_take]
    omega
  · exact fits

/-- `video=` stands in the kernel parameter as an option or not at all. -/
def VideoOptionClear (settings : KernelSettings) : Prop :=
  HasToken settings.kernelParameter videoOption ∨
    strstr settings.kernelParameter videoOption = none

def VideoIsIpOff (settings : KernelSettings) (initrd : Option Initrd)
    (pccardType : Nat) : Prop :=
  initrd = none ∧ pccardType = 0 ∧
    ¬ HasToken settings.kernelParameter ipOption ∧
    settings.videoParameter = noIp

theorem fullParameter_eq_spec {settings : KernelSettings}
    (clear : VideoOptionClear settings) :
    fullParameter settings = parameterSpec settings := by
  rw [fullParameter, parameterSpec]
  by_cases given : HasToken settings.kernelParameter videoOption
  · have found : strstr settings.kernelParameter videoOption ≠ none := by
      intro absent
      obtain ⟨offset, occurs, -⟩ :=
        (hasToken_iff_tokenAt (by decide)).mp given
      exact strstr_eq_none.mp absent offset occurs
    rw [if_neg found, if_pos given]
  · rw [if_pos (clear.resolve_left given), if_neg given]

theorem handedLine_eq_spec_of_fits {settings : KernelSettings}
    {initrd : Option Initrd} {pccardType : Nat}
    (clear : VideoOptionClear settings)
    (fits : lineLength settings initrd pccardType ≤ 2 * maxInputLen - 1) :
    handedLine settings initrd pccardType =
      commandlineSpec settings initrd pccardType := by
  rw [← commandlineSpec_length] at fits
  have uncut : (parameterSpec settings ++ initrdText initrd).length ≤
      2 * maxInputLen - 1 →
      cutLine settings initrd =
        parameterSpec settings ++ initrdText initrd := by
    intro short
    rw [cutLine, fullParameter_eq_spec clear, List.take_of_length_le short]
  rw [commandlineSpec] at fits ⊢
  split <;> rename_i appended
  · rw [if_pos appended, List.length_append] at fits
    rw [handedLine, uncut (by omega), if_pos appended,
      List.take_of_length_le (by omega)]
  · rw [if_neg appended] at fits
    rw [handedLine, uncut fits, if_neg appended]

private theorem lost_video_eq {video first second : Text}
    {initrd : Option Initrd} (shapeFirst : first = ipOff ∨ first = [])
    (shapeSecond : second = ipOff ∨ second = [])
    (same : initrdText initrd ++ first =
      ' ' :: (video ++ (initrdText initrd ++ second))) :
    first = ipOff ∧ initrd = none ∧ video = noIp := by
  have ipLength := ipOff_length
  have lengths := congrArg List.length same
  simp only [List.length_append, List.length_cons] at lengths
  rcases shapeFirst with rfl | rfl
  · rcases shapeSecond with rfl | rfl
    · omega
    · have videoLength : video.length = 6 := by
        rw [List.length_nil] at lengths
        omega
      cases initrd with
      | none =>
          refine ⟨rfl, rfl, ?_⟩
          simpa [initrdText, ipOff] using same.symm
      | some initrd =>
          -- Behind six characters the initrd bounds do not start again.
          have letter : (initrdText (some initrd) ++ ipOff)[7]? = rdStart[6]? := by
            rw [initrdText, initrdBounds, List.append_assoc, List.cons_append,
              List.append_assoc, List.getElem?_cons_succ,
              List.getElem?_append_left (by decide)]
          rw [same, List.getElem?_cons_succ,
            List.getElem?_append_right (by omega), videoLength] at letter
          rw [initrdText, initrdBounds, List.append_assoc, List.cons_append,
            List.cons_append, List.getElem?_cons_zero] at letter
          exact absurd letter (by decide)
  · rw [List.length_nil] at lengths
    omega

theorem videoIsIpOff_of_eq {settings : KernelSettings}
    {initrd : Option Initrd} {pccardType : Nat}
    (unclear : ¬ VideoOptionClear settings)
    (same : handedLine settings initrd pccardType =
      commandlineSpec settings initrd pccardType) :
    VideoIsIpOff settings initrd pccardType := by
  rw [VideoOptionClear, not_or] at unclear
  have size : maxInputLen = 1024 := rfl
  have kernelFits := settings.kernelParameter_fits
  have ipLength := ipOff_length
  have initrdLength : (initrdText initrd).length ≤ 39 := by
    rw [initrdText_length]
    split <;> omega
  have uncut : cutLine settings initrd =
      settings.kernelParameter ++ initrdText initrd := by
    rw [cutLine, fullParameter, if_neg unclear.2, List.take_of_length_le]
    rw [List.length_append]
    omega
  obtain ⟨first, handed, shapeFirst, appended⟩ : ∃ first,
      handedLine settings initrd pccardType =
          settings.kernelParameter ++ (initrdText initrd ++ first) ∧
        (first = ipOff ∨ first = []) ∧
        (first = ipOff → pccardType = 0 ∧
          ¬ HasToken settings.kernelParameter ipOption) := by
    rw [handedLine, uncut]
    split <;> rename_i condition
    · rw [hasToken_append_initrdText] at condition
      refine ⟨ipOff, ?_, .inl rfl, fun _ => condition⟩
      rw [List.take_of_length_le (by rw [List.length_append]; omega),
        List.append_assoc]
    · exact ⟨[], by rw [List.append_nil], .inr rfl, nofun⟩
  obtain ⟨second, specified, shapeSecond⟩ : ∃ second,
      commandlineSpec settings initrd pccardType =
          settings.kernelParameter ++ ' ' ::
            (settings.videoParameter ++ (initrdText initrd ++ second)) ∧
        (second = ipOff ∨ second = []) := by
    rw [commandlineSpec, parameterSpec, if_neg unclear.1]
    split
    · exact ⟨ipOff, by simp, .inl rfl⟩
    · exact ⟨[], by simp, .inr rfl⟩
  rw [handed, specified, List.append_cancel_left_eq] at same
  obtain ⟨firstIs, absent, video⟩ := lost_video_eq shapeFirst shapeSecond same
  obtain ⟨noCard, noOption⟩ := appended firstIs
  exact ⟨absent, noCard, noOption, video⟩

theorem handedLine_eq_spec_of_videoIsIpOff {settings : KernelSettings}
    {initrd : Option Initrd} {pccardType : Nat}
    (unclear : ¬ VideoOptionClear settings)
    (restored : VideoIsIpOff settings initrd pccardType) :
    handedLine settings initrd pccardType =
      commandlineSpec settings initrd pccardType := by
  obtain ⟨rfl, noCard, noOption, video⟩ := restored
  rw [VideoOptionClear, not_or] at unclear
  have ipLength := ipOff_length
  have size : maxInputLen = 1024 := rfl
  have kernelFits := settings.kernelParameter_fits
  have given : HasToken (settings.kernelParameter ++ ipOff) ipOption := by
    rw [ipOff, hasToken_append_space]
    exact .inr (by decide)
  rw [handedLine, commandlineSpec, cutLine_none, fullParameter,
    if_neg unclear.2, parameterSpec, if_neg unclear.1, initrdText,
    List.append_nil, video, ← ipOff, if_pos ⟨noCard, noOption⟩,
    if_neg (fun condition => condition.2 given),
    List.take_of_length_le (by omega)]

/-- The command line is exact if and only if the whole line fits the array and
`video=` occurs in the kernel parameter at a token start or nowhere, or the
video parameter lost otherwise is `ip=off` itself. -/
theorem commandlineExact_iff_clear_and_fits (settings : KernelSettings)
    (full : FullKernelParameter) (initrd : Option Initrd) (pccardType : Nat) :
    CommandlineExact settings full initrd pccardType ↔
      (VideoOptionClear settings ∨
          VideoIsIpOff settings initrd pccardType) ∧
        lineLength settings initrd pccardType ≤ 2 * maxInputLen - 1 := by
  rw [commandlineExact_iff]
  constructor
  · intro same
    constructor
    · by_cases clear : VideoOptionClear settings
      · exact .inl clear
      · exact .inr (videoIsIpOff_of_eq clear same)
    · have fits := handedLine_length settings initrd pccardType
      rw [← commandlineSpec_length, ← same]
      omega
  · rintro ⟨allowed, fits⟩
    by_cases clear : VideoOptionClear settings
    · exact handedLine_eq_spec_of_fits clear fits
    · exact handedLine_eq_spec_of_videoIsIpOff clear
        (allowed.resolve_left clear)

/-! ### A lost video parameter -/

def blankFull : FullKernelParameter :=
  { chars := List.replicate (maxInputLen + maxInputLen) '\x00'
    size := List.length_replicate }

/-- A kernel parameter with a token that only contains `video=`. -/
def noVideoSettings : KernelSettings :=
  { kernelParameter := "novideo=1".toList
    videoParameter := "crtmode=pal".toList
    kernelParameter_fits := by decide
    videoParameter_fits := by decide
    kernelParameter_nulFree := by decide
    videoParameter_nulFree := by decide }

/-- On a console with a network adapter the kernel gets `novideo=1` alone. -/
theorem noVideoSettings_not_commandlineExact :
    ¬ CommandlineExact noVideoSettings blankFull none 0x0100 := by
  intro exactLine
  rw [commandlineExact_iff] at exactLine
  have unclear : ¬ VideoOptionClear noVideoSettings := by
    rintro (given | absent)
    · rw [hasToken_of_spaceless (by decide)] at given
      exact absurd given (by decide)
    · exact strstr_eq_none.mp absent 2 (by decide)
  obtain ⟨-, noCard, -⟩ := videoIsIpOff_of_eq unclear exactLine
  cases noCard

end KernelReloaded.Boot
