/-
The scans for `ip=` on the screen, next to `hasCommandlineOption`.

`graphic_common` shows the address of the kernel command line in its bottom bar
and in its panel.  Both places walk from one blank to the next, where
`hasCommandlineOption` searches for the option and looks at the character in
front of it.
-/

import KernelReloaded.Loader.CommandLine
import Mathlib.Data.Nat.Find

namespace KernelReloaded.Boot

open CText

/-! ### The scans -/

/-- The address up to a colon or a blank, or as much as fits. -/
def copyAddress : (room : Nat) → Text → Text
  | 0, _ => []
  | _, [] => []
  | room + 1, char :: rest =>
      if char = ':' ∨ char = ' ' then [] else char :: copyAddress room rest

structure IpScan where
  matched : Option Nat
  ip : Option Text

def noMatch : IpScan := { matched := none, ip := none }

def matchAt (size : Nat) (cmdline : Text) (f : Nat) : IpScan :=
  let ipbuf := copyAddress (size - 1) (cmdline.drop (f + 3))
  { matched := some f, ip := if 0 < ipbuf.length then some ipbuf else none }

def ipScanLoop (size : Nat) (cmdline : Text) : (rounds f : Nat) → IpScan
  | 0, _ => noMatch
  | rounds + 1, f =>
      if f < cmdline.length then
        if ipOption <+: cmdline.drop f ∧
            (f = 0 ∨ cmdline[f - 1]? = some ' ') then
          matchAt size cmdline f
        else
          match strchr (cmdline.drop f) ' ' with
          | none => noMatch
          | some offset => ipScanLoop size cmdline rounds (f + offset + 1)
      else noMatch

def panelIpScan (cmdline : Text) : IpScan :=
  ipScanLoop 24 cmdline (cmdline.length + 1) 0

def bottomBarIpScan (cmdline : Text) : IpScan :=
  ipScanLoop 24 cmdline (cmdline.length + 1) 0

/-! ### From blank to blank -/

theorem tokenAt_lt {text option : Text} {offset : Nat} (nonempty : option ≠ [])
    (token : TokenAt text option offset) : offset < text.length := by
  by_contra outside
  have occurs := token.1
  rw [List.drop_eq_nil_of_le (Nat.le_of_not_lt outside), List.prefix_nil] at occurs
  exact nonempty occurs

theorem tokenAt_blank {text option : Text} {f offset : Nat}
    (token : TokenAt text option offset) (behind : f < offset) :
    (text.drop f)[offset - 1 - f]? = some ' ' := by
  rw [List.getElem?_drop, Nat.add_sub_of_le (by omega)]
  exact token.2.resolve_left (by omega)

/-- The first place from `f` on where a token starts with the option. -/
structure FirstToken (text option : Text) (f g : Nat) : Prop where
  behind : f ≤ g
  token : TokenAt text option g
  first : ∀ earlier, f ≤ earlier → earlier < g → ¬ TokenAt text option earlier

section

variable {text option : Text} {f g offset : Nat}

theorem firstToken_here (here : TokenAt text option f) :
    FirstToken text option f g ↔ f = g := by
  constructor
  · intro found
    by_contra other
    have behind := found.behind
    exact found.first f (Nat.le_refl f) (by omega) here
  · intro same
    subst same
    refine ⟨Nat.le_refl f, here, ?_⟩
    intro earlier behind before
    omega

theorem not_firstToken (notHere : ¬ TokenAt text option f)
    (noBlank : strchr (text.drop f) ' ' = none) :
    ¬ FirstToken text option f g := by
  intro found
  by_cases same : f = g
  · exact notHere (same ▸ found.token)
  · have after : f < g := Nat.lt_of_le_of_ne found.behind same
    exact strchr_eq_none noBlank _ (tokenAt_blank found.token after)

theorem firstToken_next (notHere : ¬ TokenAt text option f)
    (blank : strchr (text.drop f) ' ' = some offset) :
    FirstToken text option f g ↔
      FirstToken text option (f + offset + 1) g := by
  have between (e : Nat) (behind : f ≤ e) (upTo : e < f + offset + 1) :
      ¬ TokenAt text option e := by
    intro token
    by_cases same : f = e
    · exact notHere (same ▸ token)
    · have after : f < e := Nat.lt_of_le_of_ne behind same
      have before : e - 1 - f < offset := by omega
      exact strchr_eq_some blank before (tokenAt_blank token after)
  constructor
  · intro found
    refine ⟨?_, found.token, ?_⟩
    · by_contra near
      exact between g found.behind (Nat.lt_of_not_le near) found.token
    · intro earlier behind before
      exact found.first earlier (by omega) before
  · intro found
    refine ⟨?_, found.token, ?_⟩
    · have behind := found.behind
      omega
    · intro earlier behind before
      by_cases near : earlier < f + offset + 1
      · exact between earlier behind near
      · exact found.first earlier (Nat.le_of_not_lt near) before

end

theorem ipScanLoop_matched (size : Nat) (cmdline : Text) (rounds f g : Nat)
    (enough : cmdline.length < rounds + f) :
    (ipScanLoop size cmdline rounds f).matched = some g ↔
      FirstToken cmdline ipOption f g := by
  have nonempty : ipOption ≠ [] := by decide
  induction rounds generalizing f with
  | zero =>
      simp only [ipScanLoop, noMatch, reduceCtorEq, false_iff]
      intro found
      have inside := tokenAt_lt nonempty found.token
      have behind := found.behind
      omega
  | succ rounds ih =>
      rw [ipScanLoop]
      by_cases inside : f < cmdline.length
      · rw [if_pos inside]
        by_cases here : ipOption <+: cmdline.drop f ∧
            (f = 0 ∨ cmdline[f - 1]? = some ' ')
        · rw [if_pos here, firstToken_here here]
          simp only [matchAt, Option.some.injEq]
        · rw [if_neg here]
          cases search : strchr (cmdline.drop f) ' ' with
          | none =>
              simp only [noMatch, reduceCtorEq, false_iff]
              exact not_firstToken here search
          | some offset =>
              rw [firstToken_next here search]
              exact ih (f + offset + 1) (by omega)
      · rw [if_neg inside]
        simp only [noMatch, reduceCtorEq, false_iff]
        intro found
        have bounded := tokenAt_lt nonempty found.token
        have behind := found.behind
        omega

theorem exists_firstToken {text option : Text} {offset : Nat}
    (token : TokenAt text option offset) :
    ∃ g, FirstToken text option 0 g := by
  classical
  have present : ∃ g, TokenAt text option g := ⟨offset, token⟩
  refine ⟨Nat.find present, Nat.zero_le _, Nat.find_spec present, ?_⟩
  intro earlier _behind before
  exact Nat.find_min present before

/-- The scan and `hasCommandlineOption` agree, and the scan stops at the first
token. -/
structure AgreesOnIp (cmdline : Text) (scan : IpScan) : Prop where
  entered : scan.matched.isSome = hasCommandlineOption cmdline ipOption
  first : ∀ f, scan.matched = some f → FirstToken cmdline ipOption 0 f

theorem ipScanLoop_agrees (size : Nat) (cmdline : Text) :
    AgreesOnIp cmdline
      (ipScanLoop size cmdline (cmdline.length + 1) 0) := by
  have matched := fun g => ipScanLoop_matched size cmdline (cmdline.length + 1)
    0 g (by omega)
  have option : hasCommandlineOption cmdline ipOption = true ↔ _ :=
    findOption_iff (by decide) (by decide) (cmdline.length + 1) 0 (by omega)
  refine ⟨?_, fun f entered => (matched f).mp entered⟩
  rw [Bool.eq_iff_iff, option, Option.isSome_iff_exists]
  simp only [matched]
  constructor
  · intro found
    obtain ⟨g, isFirst⟩ := found
    exact ⟨g, Nat.zero_le g, isFirst.token⟩
  · intro found
    obtain ⟨offset, -, token⟩ := found
    exact exists_firstToken token

/-- For an option without blanks the search finds the tokens, and both scans of
the screen find the first of them for `ip=`. -/
theorem hasCommandlineOption_scans :
    (∀ cmdline option : Text, option ≠ [] → ' ' ∉ option →
      (hasCommandlineOption cmdline option = true ↔
        ∃ token, token ∈ tokens cmdline ∧ option <+: token)) ∧
      ∀ cmdline : Text,
        AgreesOnIp cmdline (panelIpScan cmdline) ∧
          AgreesOnIp cmdline (bottomBarIpScan cmdline) := by
  constructor
  · intro cmdline option nonempty spaceless
    exact hasCommandlineOption_iff nonempty spaceless
  · intro cmdline
    exact ⟨ipScanLoop_agrees 24 cmdline, ipScanLoop_agrees 24 cmdline⟩

theorem noip_scans :
    hasCommandlineOption "noip=ip= ip=1.2.3.4:x".toList "ip=".toList = true ∧
      (panelIpScan "noip=ip= ip=1.2.3.4:x".toList).matched = some 9 ∧
      (panelIpScan "noip=ip= ip=1.2.3.4:x".toList).ip = some "1.2.3.4".toList ∧
      AgreesOnIp "noip=ip= ip=1.2.3.4:x".toList
        (bottomBarIpScan "noip=ip= ip=1.2.3.4:x".toList) := by
  refine ⟨?_, by decide +kernel, by decide +kernel,
    (hasCommandlineOption_scans.2 _).2⟩
  apply (hasCommandlineOption_scans.1 _ _ (by decide) (by decide)).mpr
  exact ⟨"ip=1.2.3.4:x".toList, by decide +kernel, by decide +kernel⟩

end KernelReloaded.Boot
