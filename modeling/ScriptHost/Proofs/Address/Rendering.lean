import Mathlib.Data.List.DropRight
import Mathlib.Data.List.Infix
import ScriptHost.Address

/-!
# Written addresses

An address is cut at the first double colon and both parts are trimmed after that, so blanks can
stand between the separator and a colon that ends the module. In the written form they are gone,
and the separator is found one colon earlier. `reads_back_iff`: what was read of a text is read back
from its written form unless it has a type and a module that ends with a colon. In that case what is
read, if anything is, is another address (`parse_render_of_endsInColon`).
-/

namespace ScriptHost

/-! ## Trimmed characters -/

namespace Text

variable {cs before after : List Char}

/-- Neither end of the characters is blank. -/
structure Tight (cs : List Char) : Prop where
  head : ∀ c ∈ cs.head?, isBlank c = false
  last : ∀ c ∈ cs.getLast?, isBlank c = false

theorem trimBlanks_infix (cs : List Char) : trimBlanks cs <:+: cs :=
  (List.rdropWhile_prefix isBlank _).isInfix.trans (List.dropWhile_suffix isBlank).isInfix

theorem tight_trimBlanks (cs : List Char) : Tight (trimBlanks cs) := by
  constructor
  · intro c hc
    obtain ⟨cut, hcut⟩ : trimBlanks cs <+: dropBlanks cs :=
      List.rdropWhile_prefix isBlank (dropBlanks cs)
    have hhead : (dropBlanks cs).head? = some c := by
      rw [← hcut, List.head?_append, hc, Option.some_or]
    have hblank := List.head?_dropWhile_not isBlank cs
    rw [show (cs.dropWhile isBlank).head? = some c from hhead] at hblank
    exact hblank
  · intro c hc
    have hne : trimBlanks cs ≠ [] := by
      rintro h
      simp [h] at hc
    have hlast := List.rdropWhile_last_not isBlank (dropBlanks cs) hne
    rw [List.getLast?_eq_getLast_of_ne_nil hne] at hc
    cases hc
    exact Bool.eq_false_iff.2 hlast

theorem Tight.trimBlanks_eq (h : Tight cs) : trimBlanks cs = cs := by
  have hfront : dropBlanks cs = cs := by
    cases cs with
    | nil => rfl
    | cons c rest => exact List.dropWhile_cons_of_neg (Bool.eq_false_iff.1 (h.head c rfl))
  have hback : cs.rdropWhile isBlank = cs := by
    refine List.rdropWhile_eq_self_iff.2 fun hne => Bool.eq_false_iff.1 (h.last _ ?_)
    exact List.getLast?_eq_getLast_of_ne_nil hne
  rw [trimBlanks, hfront]
  exact hback

/-- Whatever stands between characters with tight ends has tight ends. -/
theorem Tight.append (hb : Tight before) (ha : Tight after) (hbne : before ≠ []) (hane : after ≠ [])
    (middle : List Char) : Tight (before ++ middle ++ after) := by
  constructor
  · intro c hc
    rw [List.append_assoc, List.head?_append_of_ne_nil _ hbne] at hc
    exact hb.head c hc
  · intro c hc
    rw [List.getLast?_append_of_ne_nil _ hane] at hc
    exact ha.last c hc

end Text

namespace Address

/-! ## The first double colon -/

variable {cs before after : List Char}

/-- Do the characters hold a double colon? -/
def Separated (cs : List Char) : Prop := [':', ':'] <:+: cs

theorem Separated.mono (h : Separated before) (hi : before <:+: after) : Separated after :=
  h.trans hi

theorem not_separated_nil : ¬ Separated [] := fun h => absurd h.length_le (by decide)

theorem not_separated_singleton (c : Char) : ¬ Separated [c] :=
  fun h => absurd h.length_le (Nat.not_succ_le_self 1)

theorem separated_cons {c : Char} :
    Separated (c :: cs) ↔ (c = ':' ∧ cs.head? = some ':') ∨ Separated cs := by
  rw [Separated, List.infix_cons_iff]
  refine or_congr_left ?_
  rw [List.cons_prefix_cons, eq_comm]
  refine and_congr_right fun _ => ?_
  cases cs with
  | nil => simp
  | cons d rest => simp [List.cons_prefix_cons, eq_comm]

theorem separated_concat {c : Char} :
    Separated (cs ++ [c]) ↔ Separated cs ∨ (cs.getLast? = some ':' ∧ c = ':') := by
  induction cs with
  | nil => simp [not_separated_nil, not_separated_singleton]
  | cons d rest ih =>
    rw [List.cons_append, separated_cons, separated_cons, ih]
    cases rest with
    | nil => simp [not_separated_nil]
    | cons e rest => simp [or_assoc]

/-- The cut of characters that hold a double colon: before the first one. -/
theorem splitColons_append (h : ¬ Separated (before ++ [':'])) (after : List Char) :
    splitColons (before ++ ':' :: ':' :: after) = some (before, after) := by
  induction before with
  | nil => rfl
  | cons c rest ih =>
    rw [List.cons_append, separated_cons, not_or] at h
    have hcut : ¬ (c = ':' ∧ ∃ more, rest ++ ':' :: ':' :: after = ':' :: more) := by
      rintro ⟨hc, more, hmore⟩
      refine h.1 ⟨hc, ?_⟩
      cases rest with
      | nil => rfl
      | cons d rest =>
        rw [List.cons_append, List.cons.injEq] at hmore
        rw [List.cons_append, List.head?_cons, hmore.1]
    rw [List.cons_append, splitColons, ih h.2]
    · rfl
    · intro more hc hmore
      exact hcut ⟨hc, more, hmore⟩

theorem eq_of_splitColons (h : splitColons cs = some (before, after)) :
    cs = before ++ ':' :: ':' :: after ∧ ¬ Separated (before ++ [':']) := by
  fun_induction splitColons cs generalizing before with
  | case1 rest =>
    cases h
    exact ⟨rfl, not_separated_singleton ':'⟩
  | case2 c rest hcut ih =>
    obtain ⟨⟨front, back⟩, hrest, heq⟩ := Option.map_eq_some_iff.1 h
    cases heq
    obtain ⟨rfl, hnot⟩ := ih hrest
    refine ⟨rfl, ?_⟩
    rw [List.cons_append, separated_cons, not_or]
    refine ⟨?_, hnot⟩
    rintro ⟨hc, hhead⟩
    cases front with
    | nil => exact hcut _ hc rfl
    | cons d front =>
      rw [List.cons_append, List.head?_cons, Option.some.injEq] at hhead
      exact hcut _ hc (by rw [hhead]; rfl)
  | case3 => cases h

theorem splitColons_eq_none_iff : splitColons cs = none ↔ ¬ Separated cs := by
  fun_induction splitColons cs with
  | case1 rest => simp [separated_cons]
  | case2 c rest hcut ih =>
    rw [Option.map_eq_none_iff, ih, separated_cons, not_or]
    refine ⟨fun h => ⟨?_, h⟩, And.right⟩
    rintro ⟨hc, hhead⟩
    obtain ⟨more, hmore⟩ := List.head?_eq_some_iff.1 hhead
    exact hcut more hc hmore
  | case3 => simp [not_separated_nil]

/-! ## Reading -/

/-- What a text is read as: its module alone, or both parts of its cut. -/
theorem parse_eq_ok_iff {text : String} {a : Address} :
    parse text = .ok a ↔
      (Text.trimBlanks text.toList ≠ [] ∧ ¬ Separated (Text.trimBlanks text.toList) ∧
        a = ⟨String.ofList (Text.trimBlanks text.toList), none⟩) ∨
      ∃ before after, splitColons (Text.trimBlanks text.toList) = some (before, after) ∧
        Text.trimBlanks before ≠ [] ∧ Text.trimBlanks after ≠ [] ∧
        a = ⟨String.ofList (Text.trimBlanks before),
          some (String.ofList (Text.trimBlanks after))⟩ := by
  rw [← splitColons_eq_none_iff]
  unfold parse
  dsimp only
  by_cases hempty : Text.trimBlanks text.toList = []
  · simp [hempty, splitColons]
  · rw [if_neg hempty]
    cases hcut : splitColons (Text.trimBlanks text.toList) with
    | none => simp [hempty, @eq_comm _ _ a]
    | some cut =>
      obtain ⟨before, after⟩ := cut
      by_cases ha : Text.trimBlanks after = []
      · simp [ha]
      by_cases hb : Text.trimBlanks before = []
      · simp [ha, hb]
      simp [ha, hb, @eq_comm _ _ a]

/-! ## Reading what is written -/

/-- There is a type, and the module ends with a colon, which stands before the separator in the
written form. -/
def EndsInColon (a : Address) : Prop :=
  a.typeName.isSome = true ∧ a.module.toList.getLast? = some ':'

instance : DecidablePred EndsInColon := fun a => by unfold EndsInColon; infer_instance

section Typed

variable {module typeName : List Char}

theorem toList_render_typed :
    (render ⟨String.ofList module, some (String.ofList typeName)⟩).toList =
      module ++ ':' :: ':' :: typeName := by
  simp [render]

/-- What is read of a written address depends on where its first double colon is. -/
theorem parse_render_typed (hm : Text.Tight module) (ht : Text.Tight typeName) (hmne : module ≠ [])
    (htne : typeName ≠ []) {before after : List Char}
    (hcut : splitColons (module ++ ':' :: ':' :: typeName) = some (before, after))
    (hafter : Text.trimBlanks after ≠ []) :
    parse (render ⟨String.ofList module, some (String.ofList typeName)⟩) =
      if Text.trimBlanks before = [] then
        .error (.missingModule (String.ofList (module ++ ':' :: ':' :: typeName)))
      else .ok ⟨String.ofList (Text.trimBlanks before),
        some (String.ofList (Text.trimBlanks after))⟩ := by
  have htrim : Text.trimBlanks (module ++ ':' :: ':' :: typeName) =
      module ++ ':' :: ':' :: typeName := by
    have htight := hm.append ht hmne htne [':', ':']
    rw [List.append_assoc] at htight
    exact htight.trimBlanks_eq
  unfold parse
  dsimp only
  rw [toList_render_typed, htrim, if_neg (by simp), hcut]
  exact if_neg hafter

/-- A colon that ends the module goes over to the type. -/
theorem parse_render_of_endsInColon (hm : Text.Tight (module ++ [':'])) (ht : Text.Tight typeName)
    (htne : typeName ≠ []) (hnot : ¬ Separated (module ++ [':'])) :
    parse (render ⟨String.ofList (module ++ [':']), some (String.ofList typeName)⟩) =
      if Text.trimBlanks module = [] then
        .error (.missingModule (String.ofList (module ++ [':'] ++ ':' :: ':' :: typeName)))
      else
        .ok ⟨String.ofList (Text.trimBlanks module), some (String.ofList (':' :: typeName))⟩ := by
  have hcut : splitColons (module ++ [':'] ++ ':' :: ':' :: typeName) =
      some (module, ':' :: typeName) := by
    rw [List.append_assoc]
    exact splitColons_append hnot (':' :: typeName)
  have hcolon : Text.Tight [':'] := ⟨by simp; decide, by simp; decide⟩
  have htrim : Text.trimBlanks (':' :: typeName) = ':' :: typeName := by
    have htight := hcolon.append ht (List.cons_ne_nil _ _) htne []
    exact htight.trimBlanks_eq
  rw [parse_render_typed hm ht (by simp) htne hcut (by rw [htrim]; exact List.cons_ne_nil _ _),
    htrim]

end Typed

/-- **Written addresses.** An address that was read is read back from its written form if and only
if it is not one with a type and a module that ends with a colon. -/
theorem reads_back_iff {text : String} {a : Address} (h : parse text = .ok a) :
    parse a.render = .ok a ↔ ¬ a.EndsInColon := by
  obtain ⟨hne, hnot, rfl⟩ | ⟨before, after, hcut, hb, ha, rfl⟩ := parse_eq_ok_iff.1 h
  · refine iff_of_true (parse_eq_ok_iff.2 (.inl ?_)) fun hc => Bool.false_ne_true hc.1
    have htrim := (Text.tight_trimBlanks text.toList).trimBlanks_eq
    rw [render, String.toList_ofList, htrim]
    exact ⟨hne, hnot, rfl⟩
  · obtain ⟨-, hnot⟩ := eq_of_splitColons hcut
    have hbt := Text.tight_trimBlanks before
    have hat := Text.tight_trimBlanks after
    have hinfix : Text.trimBlanks before <:+: before ++ [':'] :=
      (Text.trimBlanks_infix before).trans (List.prefix_append _ _).isInfix
    have hmodule : ¬ Separated (Text.trimBlanks before) := fun hs => hnot (hs.mono hinfix)
    rw [EndsInColon, String.toList_ofList, Option.isSome_some, and_iff_right rfl]
    by_cases hlast : (Text.trimBlanks before).getLast? = some ':'
    · -- the colon is read as part of the type, and the module as something shorter
      refine iff_of_false (fun hread => ?_) (not_not_intro hlast)
      obtain ⟨module, hmod⟩ := List.getLast?_eq_some_iff.1 hlast
      rw [hmod] at hbt hmodule hread
      rw [parse_render_of_endsInColon hbt hat ha hmodule] at hread
      split at hread
      · cases hread
      · have hsame := congrArg String.toList (Address.mk.inj (Except.ok.inj hread)).1
        rw [String.toList_ofList, String.toList_ofList] at hsame
        have hlength := (Text.trimBlanks_infix module).length_le
        rw [hsame, List.length_append, List.length_singleton] at hlength
        exact absurd hlength (Nat.not_succ_le_self _)
    · refine iff_of_true ?_ hlast
      have hcut' : splitColons (Text.trimBlanks before ++ ':' :: ':' :: Text.trimBlanks after) =
          some (Text.trimBlanks before, Text.trimBlanks after) := by
        refine splitColons_append (fun hs => ?_) _
        obtain hs | ⟨hs, -⟩ := separated_concat.1 hs
        · exact hmodule hs
        · exact hlast hs
      rw [parse_render_typed hbt hat hb ha hcut' (by rwa [hat.trimBlanks_eq]),
        hbt.trimBlanks_eq, hat.trimBlanks_eq, if_neg hb]

/-- An address with blanks and single colons in its module, and a type that begins with one. -/
theorem reads_back_singleColons :
    parse " x: y :: :T " = .ok ⟨"x: y", some ":T"⟩ ∧ ¬ EndsInColon ⟨"x: y", some ":T"⟩ ∧
      parse (render ⟨"x: y", some ":T"⟩) = .ok ⟨"x: y", some ":T"⟩ := by
  have h : parse " x: y :: :T " = .ok ⟨"x: y", some ":T"⟩ := by decide
  have hc : ¬ EndsInColon ⟨"x: y", some ":T"⟩ := by decide
  exact ⟨h, hc, (reads_back_iff h).2 hc⟩

/-- The blank keeps the colon of the module off the separator; without it the type gets a colon. -/
theorem not_reads_back_endsInColon :
    parse "a: ::b" = .ok ⟨"a:", some "b"⟩ ∧
      parse (render ⟨"a:", some "b"⟩) = .ok ⟨"a", some ":b"⟩ ∧
      ¬ ∀ text a, parse text = .ok a → parse a.render = .ok a := by
  have h : parse "a: ::b" = .ok ⟨"a:", some "b"⟩ := by decide
  have hread : parse (render ⟨"a:", some "b"⟩) = .ok ⟨"a", some ":b"⟩ := by decide
  refine ⟨h, hread, fun hall => ?_⟩
  exact absurd (hread.symm.trans (hall _ _ h)) (by decide)

end Address

end ScriptHost
