import CachedParameters.Dict
import CachedParameters.Memory.Configurations
import Mathlib.Data.List.TakeWhile
import Mathlib.Order.Basic

/-!
# Tokens of a configuration store in memory

A configuration store in memory numbers its tokens, so it never gives out the same one twice. A call
for one profile leaves everything as it is that matters to the others: the profiles, the tokens they
hold, and which calls are made to fail. And a call fails only if it has an excuse: there is no such
profile, the next poll was to fail, or the call itself was made to fail. A token that was granted is
never refused.

## Main results

- `Memory.Configurations.number_eq_of_tokenOf_eq`: tokens tell their numbers.
- `Memory.Configurations.startSession_spec`, `Memory.Configurations.getLatest_spec`: what a call
  does.
-/

namespace CachedParameters.Memory

namespace Configurations

/-- The token of a number, as it is written. The number stands behind the last hash sign, so
different numbers have different tokens whatever the profile. -/
def tokenOf (profile : String) (number : ℕ) : String := profile ++ "#" ++ toString number

/-- A token was given out: it is the one of a number that the counter has passed. -/
def Issued (s : Configurations) (token : String) : Prop :=
  ∃ profile number, number < s.issued ∧ token = tokenOf profile number

/-- A token that was given out stays so while more are given out. -/
theorem Issued.mono {s t : Configurations} {token : String} (h : s.Issued token)
    (hle : s.issued ≤ t.issued) : t.Issued token := by
  obtain ⟨profile, number, hlt, hnumber⟩ := h
  exact ⟨profile, number, hlt.trans_le hle, hnumber⟩

/-- A token is the name of its profile, a mark, and the digits of its number. -/
theorem toList_tokenOf (profile : String) (number : ℕ) :
    (tokenOf profile number).toList = profile.toList ++ '#' :: Nat.toDigits 10 number := by
  simp [tokenOf]

/-- The digits of a token are what stands behind its last mark. -/
theorem takeWhile_tokenOf (profile : String) (number : ℕ) :
    (tokenOf profile number).toList.reverse.takeWhile (· ≠ '#') =
      (Nat.toDigits 10 number).reverse := by
  have hdigits : ∀ c ∈ (Nat.toDigits 10 number).reverse, decide (c ≠ '#') = true := by
    intro c hc
    refine decide_eq_true ?_
    rintro rfl
    have hdigit := Nat.isDigit_of_mem_toDigits (by decide) (by decide) (List.mem_reverse.mp hc)
    exact absurd hdigit (by decide)
  rw [toList_tokenOf, List.reverse_append, List.reverse_cons, List.append_assoc,
    List.takeWhile_append_of_pos hdigits]
  simp

/-- **Tokens tell their numbers**, whatever the names of their profiles: digits are no hash signs,
so the number is what stands behind the last one. -/
theorem number_eq_of_tokenOf_eq {p q : String} {j k : ℕ} (h : tokenOf p j = tokenOf q k) :
    j = k := by
  have hdigits : Nat.toDigits 10 j = Nat.toDigits 10 k := by
    rw [← List.reverse_inj, ← takeWhile_tokenOf p j, ← takeWhile_tokenOf q k, h]
  calc
    j = Nat.ofDigitChars 10 (Nat.toDigits 10 j) 0 := Nat.ofDigitChars_ten_toDigits.symm
    _ = Nat.ofDigitChars 10 (Nat.toDigits 10 k) 0 := by rw [hdigits]
    _ = k := Nat.ofDigitChars_ten_toDigits

/-- The next token was not given out before. -/
theorem tokenOf_issued_ne {s : Configurations} {token : String} (h : s.Issued token)
    (profile : String) : tokenOf profile s.issued ≠ token := by
  obtain ⟨other, number, hlt, rfl⟩ := h
  intro hsame
  exact absurd (number_eq_of_tokenOf_eq hsame) hlt.ne'

/-! ### What a call leaves alone -/

/-- From one state to another, calls were made for no profile but one: the profiles and the failures
that are set are the same, the tokens of other profiles can still be presented, and the calls are
recorded behind those made before. -/
structure Proceeds (profile : String) (before after : Configurations) : Prop where
  profiles : after.profiles = before.profiles
  issued : before.issued ≤ after.issued
  grants (token : String) (grant : Grant) : before.Issued token →
    before.grants.get? token = some grant → grant.profile ≠ profile →
      after.grants.get? token = some grant
  failing : after.recorder.failing = before.recorder.failing
  calls : before.recorder.calls <+: after.recorder.calls

theorem Proceeds.refl (profile : String) (s : Configurations) : Proceeds profile s s where
  profiles := rfl
  issued := le_rfl
  grants _ _ _ hgrant _ := hgrant
  failing := rfl
  calls := List.prefix_rfl

/-- One after the other, calls for a profile are calls for it. -/
theorem Proceeds.trans {profile : String} {a b c : Configurations} (hab : Proceeds profile a b)
    (hbc : Proceeds profile b c) : Proceeds profile a c where
  profiles := hbc.profiles.trans hab.profiles
  issued := hab.issued.trans hbc.issued
  grants token grant hissued hgrant hother :=
    hbc.grants token grant (hissued.mono hab.issued)
      (hab.grants token grant hissued hgrant hother) hother
  failing := hbc.failing.trans hab.failing
  calls := hab.calls.trans hbc.calls

def noting (s : Configurations) (call : String) : Configurations :=
  { s with recorder.calls := s.recorder.calls ++ [call] }

theorem Proceeds.noting (profile : String) (s : Configurations) (call : String) :
    Proceeds profile s (s.noting call) where
  profiles := rfl
  issued := le_rfl
  grants _ _ _ hgrant _ := hgrant
  failing := rfl
  calls := List.prefix_append _ _

/-- Why a call for a profile may fail: there is no such profile, the next poll was to fail, or one
of the calls made was to fail. -/
inductive Excused (profile : String) (before after : Configurations) : Error → Prop where
  | missing : before.profiles.get? profile = none →
      Excused profile before after (.profileNotFound profile)
  | pending : before.failNextPoll = true → Excused profile before after .pollFailed
  | injected {call : String} :
      call ∈ after.recorder.calls.drop before.recorder.calls.length →
      before.recorder.failing call = true → Excused profile before after (.injected call)

/-- An excuse holds if other calls were made before. -/
theorem Excused.of_proceeds {profile : String} {a b c : Configurations} {e : Error}
    (h : Excused profile b c e) (hab : Proceeds profile a b)
    (hpending : b.failNextPoll = a.failNextPoll) : Excused profile a c e := by
  cases h with
  | missing hnone => exact .missing (hab.profiles ▸ hnone)
  | pending hfail => exact .pending (hpending ▸ hfail)
  | injected hmem hfail =>
      refine .injected ?_ (hab.failing ▸ hfail)
      exact (List.drop_sublist_drop_left _ hab.calls.length_le).subset hmem

/-! ### What a call does -/

/-- Giving out a token is a call for its profile. -/
theorem Proceeds.issue {profile : String} {before s : Configurations} (grant : Grant)
    (h : Proceeds profile before s) : Proceeds profile before (s.issue grant).2 where
  profiles := h.profiles
  issued := h.issued.trans s.issued.le_succ
  grants token other hissued hother hne := by
    have hkept := h.grants token other hissued hother hne
    have hnew := tokenOf_issued_ne (hissued.mono h.issued) grant.profile
    exact (Dict.get?_insert ..).trans ((if_neg hnew).trans hkept)
  failing := h.failing
  calls := h.calls

theorem grants_issue (s : Configurations) (grant : Grant) :
    (s.issue grant).2.grants.get? (s.issue grant).1 = some grant :=
  (Dict.get?_insert ..).trans (if_pos rfl)

theorem issued_issue (s : Configurations) (grant : Grant) :
    (s.issue grant).2.Issued (s.issue grant).1 :=
  ⟨grant.profile, s.issued, s.issued.lt_succ_self, rfl⟩

/-- Taking in a token of a profile is a call for it. -/
theorem Proceeds.erase {profile token : String} {before s : Configurations}
    (h : Proceeds profile before s) {grant : Grant} (hgrant : s.grants.get? token = some grant)
    (hprofile : grant.profile = profile) :
    Proceeds profile before { s with grants := s.grants.erase token } where
  profiles := h.profiles
  issued := h.issued
  grants other held hissued hheld hne := by
    have hkept := h.grants other held hissued hheld hne
    have hother : token ≠ other := by
      rintro rfl
      rw [hgrant] at hkept
      exact hne (Option.some.inj hkept ▸ hprofile)
    exact (Dict.get?_erase ..).trans ((if_neg hother).trans hkept)
  failing := h.failing
  calls := h.calls

/-- That a call was made to fail is an excuse. -/
theorem Excused.of_failing (profile : String) {s : Configurations} {call : String}
    (h : s.recorder.failing call = true) :
    Excused profile s (s.noting call) (.injected call) := by
  refine .injected ?_ h
  rw [noting, List.drop_left]
  exact List.mem_singleton_self call

/-- **To open a session** gives out a token for the profile, unless there is an excuse. -/
theorem startSession_spec (application environment profile : String) (s : Configurations) :
    Proceeds profile s (startSession application environment profile s).2 ∧
      (startSession application environment profile s).2.failNextPoll = s.failNextPoll ∧
      match (startSession application environment profile s).1 with
      | .error e => Excused profile s (startSession application environment profile s).2 e
      | .ok token => (startSession application environment profile s).2.grants.get? token =
            some ⟨profile, none⟩ ∧
          ∃ current, s.profiles.get? profile = some current := by
  have hproceeds := Proceeds.noting profile s
    ("start_session:" ++ application ++ "/" ++ environment ++ "/" ++ profile)
  rw [startSession, Recorder.record]
  cases hfail : s.recorder.failing
    ("start_session:" ++ application ++ "/" ++ environment ++ "/" ++ profile) with
  | true => exact ⟨hproceeds, rfl, .of_failing profile hfail⟩
  | false =>
      dsimp only [if_false]
      cases hprofile : s.profiles.get? profile with
      | none =>
          have hnone : s.profiles.contains profile = false := by
            rw [Dict.contains, hprofile, Option.isSome_none]
          simp only [hnone]
          exact ⟨hproceeds, rfl, .missing hprofile⟩
      | some current =>
          have hsome : s.profiles.contains profile = true := by
            rw [Dict.contains, hprofile, Option.isSome_some]
          simp only [hsome]
          exact ⟨hproceeds.issue _, rfl, grants_issue _ _, current, rfl⟩

/-- A poll whose token was taken in brings the document, unless a failure was pending. -/
theorem poll_spec (grant : Grant) {before s : Configurations} {current : Profile}
    (hproceeds : Proceeds grant.profile before s) (hpending : s.failNextPoll = before.failNextPoll)
    (hprofile : s.profiles.get? grant.profile = some current) :
    Proceeds grant.profile before (poll grant s).2 ∧
      match (poll grant s).1 with
      | .error e => Excused grant.profile before (poll grant s).2 e
      | .ok latest =>
          latest.content =
              (if grant.delivered = some current.version then [] else current.content) ∧
            (poll grant s).2.Issued latest.nextToken ∧
            (poll grant s).2.grants.get? latest.nextToken =
              some ⟨grant.profile, some current.version⟩ := by
  rw [poll]
  split
  · rename_i hfail
    exact ⟨⟨hproceeds.profiles, hproceeds.issued, hproceeds.grants, hproceeds.failing,
      hproceeds.calls⟩, .pending (hpending ▸ hfail)⟩
  · simp only [hprofile]
    exact ⟨hproceeds.issue _, trivial, issued_issue _ _, grants_issue _ _⟩

/-- A granted token is taken in and then polled with, unless the call is made to fail. -/
theorem getLatest_eq_poll {s : Configurations} {token : String} {grant : Grant}
    (hfail : s.recorder.failing ("get_latest_configuration:" ++ token) = false)
    (hgrant : s.grants.get? token = some grant) :
    getLatest token s = poll grant
      { s.noting ("get_latest_configuration:" ++ token) with grants := s.grants.erase token } := by
  rw [getLatest, Recorder.record, hfail]
  simp only [hgrant]
  rfl

/-- **To poll with a granted token** brings the document of its profile, unless the session has seen
it, and gives out another token for the document as it is; or else there is an excuse. -/
theorem getLatest_spec {profile token : String} {s : Configurations} {delivered : Option ℕ}
    {current : Profile} (hgrant : s.grants.get? token = some ⟨profile, delivered⟩)
    (hprofile : s.profiles.get? profile = some current) :
    Proceeds profile s (getLatest token s).2 ∧
      match (getLatest token s).1 with
      | .error e => Excused profile s (getLatest token s).2 e
      | .ok latest =>
          latest.content = (if delivered = some current.version then [] else current.content) ∧
            (getLatest token s).2.Issued latest.nextToken ∧
            (getLatest token s).2.grants.get? latest.nextToken =
              some ⟨profile, some current.version⟩ := by
  have hproceeds := Proceeds.noting profile s ("get_latest_configuration:" ++ token)
  cases hfail : s.recorder.failing ("get_latest_configuration:" ++ token) with
  | true =>
      rw [getLatest, Recorder.record, hfail]
      exact ⟨hproceeds, .of_failing profile hfail⟩
  | false =>
      rw [getLatest_eq_poll hfail hgrant]
      exact poll_spec ⟨profile, delivered⟩ (hproceeds.erase hgrant rfl) rfl hprofile

end Configurations

end CachedParameters.Memory
