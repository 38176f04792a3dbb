import Mathlib.Data.List.Basic
import ScriptHost.Lua.Bytes

/-!
# Texts as bytes

A text that has become bytes is read as that text again (`Bytes.text?_ofString`): the bytes of each
character are read as that character, whatever comes behind them (`Bytes.decodeFrom_char`).
-/

namespace ScriptHost.Lua.Bytes

open String (utf8EncodeChar)

variable {m n : Nat}

/-! ## Bytes as numbers -/

theorem toNat_ofNat (h : n < 256) : (UInt8.ofNat n).toNat = n := UInt8.toNat_ofNat_of_lt' h

theorem ofNat_le_iff (hm : m < 256) (hn : n < 256) : UInt8.ofNat m ≤ UInt8.ofNat n ↔ m ≤ n := by
  rw [UInt8.le_iff_toNat_le, toNat_ofNat hm, toNat_ofNat hn]

theorem ofNat_lt_iff (hm : m < 256) (hn : n < 256) : UInt8.ofNat m < UInt8.ofNat n ↔ m < n := by
  rw [UInt8.lt_iff_toNat_lt, toNat_ofNat hm, toNat_ofNat hn]

theorem ofNat_inj (hm : m < 256) (hn : n < 256) : UInt8.ofNat m = UInt8.ofNat n ↔ m = n := by
  rw [← UInt8.toNat_inj, toNat_ofNat hm, toNat_ofNat hn]

theorem pending?_ofNat (hn : n < 256) :
    pending? (.ofNat n) =
      if n < 0xc2 then none
      else if n < 0xe0 then some ⟨n - 0xc0, 1, 0x80, 0xbf⟩
      else if n = 0xe0 then some ⟨0, 2, 0xa0, 0xbf⟩
      else if n = 0xed then some ⟨0xd, 2, 0x80, 0x9f⟩
      else if n < 0xf0 then some ⟨n - 0xe0, 2, 0x80, 0xbf⟩
      else if n = 0xf0 then some ⟨0, 3, 0x90, 0xbf⟩
      else if n < 0xf4 then some ⟨n - 0xf0, 3, 0x80, 0xbf⟩
      else if n = 0xf4 then some ⟨4, 3, 0x80, 0x8f⟩
      else none := by
  have hlt (k : Nat) (hk : k < 256) := ofNat_lt_iff hn hk
  have heq (k : Nat) (hk : k < 256) := ofNat_inj hn hk
  simp only [pending?, ← hlt 0xc2 (by decide), ← hlt 0xe0 (by decide), ← heq 0xe0 (by decide),
    ← heq 0xed (by decide), ← hlt 0xf0 (by decide), ← heq 0xf0 (by decide), ← hlt 0xf4 (by decide),
    ← heq 0xf4 (by decide), toNat_ofNat hn]
  rfl

/-! ## The bytes of a character -/

theorem decodeFrom_ascii (hn : n < 0x80) (rest : Bytes) :
    decodeFrom none (.ofNat n :: rest) = some (.ofNat n) :: decodeFrom none rest := by
  have hshort : UInt8.ofNat n < 0x80 := (ofNat_lt_iff (by omega) (by decide)).2 hn
  rw [decodeFrom, if_pos hshort, toNat_ofNat (by omega)]

/-- A byte that begins a character of several. -/
theorem decodeFrom_first {p : Pending} (hlow : 0x80 ≤ n) (hn : n < 256)
    (hp : pending? (.ofNat n) = some p) (rest : Bytes) :
    decodeFrom none (.ofNat n :: rest) = decodeFrom (some p) rest := by
  have hlong : ¬ UInt8.ofNat n < 0x80 := fun h =>
    absurd ((ofNat_lt_iff hn (by decide : 0x80 < 256)).1 h) (Nat.not_lt.2 hlow)
  rw [decodeFrom, if_neg hlong, hp]

/-- A byte in the bounds that those before it leave. -/
theorem decodeFrom_next {value left low high k : Nat} (hlow : low ≤ 0x80 + k) (hk : 0x80 + k ≤ high)
    (hhigh : high < 256) (rest : Bytes) :
    decodeFrom (some ⟨value, left, .ofNat low, .ofNat high⟩) (.ofNat (k + 0x80) :: rest) =
      if left = 1 then some (.ofNat (64 * value + k)) :: decodeFrom none rest
      else decodeFrom (some ⟨64 * value + k, left - 1, 0x80, 0xbf⟩) rest := by
  rw [Nat.add_comm] at hlow hk
  have hbounds : UInt8.ofNat low ≤ .ofNat (k + 0x80) ∧ UInt8.ofNat (k + 0x80) ≤ .ofNat high :=
    ⟨(ofNat_le_iff (by omega) (by omega)).2 hlow, (ofNat_le_iff (by omega) hhigh).2 hk⟩
  rw [decodeFrom, if_pos hbounds]
  dsimp only
  rw [toNat_ofNat (by omega), Nat.add_sub_cancel]

/-- The bytes after the first but one are in the bounds of any such byte. -/
theorem decodeFrom_inner {value left k : Nat} (hk : k < 64) (rest : Bytes) :
    decodeFrom (some ⟨value, left, 0x80, 0xbf⟩) (.ofNat (k + 0x80) :: rest) =
      if left = 1 then some (.ofNat (64 * value + k)) :: decodeFrom none rest
      else decodeFrom (some ⟨64 * value + k, left - 1, 0x80, 0xbf⟩) rest :=
  decodeFrom_next (show 0x80 ≤ 0x80 + k by omega) (show 0x80 + k ≤ 0xbf by omega) (by decide) rest

/-- The first of three bytes, and what it leaves to the second: no surrogate can come of it. -/
theorem pending?_three {v : Nat} (hlow : 0x7ff < v) (hhigh : v ≤ 0xffff)
    (hs : v < 0xd800 ∨ 0xdfff < v) :
    ∃ low high : Nat,
      pending? (.ofNat (v / 4096 % 16 + 0xe0)) = some ⟨v / 4096, 2, .ofNat low, .ofNat high⟩ ∧
        low ≤ 0x80 + v / 64 % 64 ∧ 0x80 + v / 64 % 64 ≤ high ∧ high < 256 := by
  rw [pending?_ofNat (by omega), if_neg (by omega), if_neg (by omega)]
  by_cases hzero : v / 4096 = 0
  · exact ⟨0xa0, 0xbf, by rw [if_pos (by omega), hzero]; rfl, by omega⟩
  by_cases hlast : v / 4096 = 0xd
  · exact ⟨0x80, 0x9f, by rw [if_neg (by omega), if_pos (by omega), hlast]; rfl, by omega⟩
  · refine ⟨0x80, 0xbf, ?_, by omega⟩
    rw [if_neg (by omega), if_neg (by omega), if_pos (by omega),
      show v / 4096 % 16 + 0xe0 - 0xe0 = v / 4096 by omega]
    rfl

/-- The first of four bytes, and what it leaves to the second. -/
theorem pending?_four {v : Nat} (hlow : 0xffff < v) (hhigh : v < 0x110000) :
    ∃ low high : Nat,
      pending? (.ofNat (v / 262144 % 8 + 0xf0)) = some ⟨v / 262144, 3, .ofNat low, .ofNat high⟩ ∧
        low ≤ 0x80 + v / 4096 % 64 ∧ 0x80 + v / 4096 % 64 ≤ high ∧ high < 256 := by
  rw [pending?_ofNat (by omega), if_neg (by omega), if_neg (by omega), if_neg (by omega),
    if_neg (by omega), if_neg (by omega)]
  by_cases hzero : v / 262144 = 0
  · exact ⟨0x90, 0xbf, by rw [if_pos (by omega), hzero]; rfl, by omega⟩
  by_cases hlast : v / 262144 = 4
  · refine ⟨0x80, 0x8f, ?_, by omega⟩
    rw [if_neg (by omega), if_neg (by omega), if_pos (by omega), hlast]
    rfl
  · refine ⟨0x80, 0xbf, ?_, by omega⟩
    rw [if_neg (by omega), if_pos (by omega),
      show v / 262144 % 8 + 0xf0 - 0xf0 = v / 262144 by omega]
    rfl

/-- **The bytes of a character** are read as that character, whatever comes behind them. -/
theorem decodeFrom_char (c : Char) (rest : Bytes) :
    decodeFrom none (utf8EncodeChar c ++ rest) = some c :: decodeFrom none rest := by
  obtain ⟨v, hv⟩ : ∃ v, v = c.val.toNat := ⟨_, rfl⟩
  have hc : Char.ofNat v = c := hv ▸ c.ofNat_toNat
  have hvalid : v < 0xd800 ∨ 0xdfff < v ∧ v < 0x110000 := hv ▸ c.valid
  rw [utf8EncodeChar, ← hv]
  -- one, two, three or four bytes
  split
  · exact hc ▸ decodeFrom_ascii (by omega) rest
  split
  · have hfirst : pending? (.ofNat (v / 64 % 32 + 0xc0)) = some ⟨v / 64, 1, 0x80, 0xbf⟩ := by
      rw [pending?_ofNat (by omega), if_neg (by omega), if_pos (by omega),
        show v / 64 % 32 + 0xc0 - 0xc0 = v / 64 by omega]
    rw [List.cons_append, decodeFrom_first (by omega) (by omega) hfirst, List.cons_append,
      decodeFrom_inner (by omega), if_pos rfl, List.nil_append,
      show 64 * (v / 64) + v % 64 = v by omega, hc]
  split
  · obtain ⟨low, high, hfirst, hlow, hk, hhigh⟩ :=
      pending?_three (v := v) (by omega) (by omega) (by omega)
    rw [List.cons_append, decodeFrom_first (by omega) (by omega) hfirst, List.cons_append,
      decodeFrom_next hlow hk hhigh, if_neg (by decide), List.cons_append,
      decodeFrom_inner (by omega), if_pos rfl, List.nil_append,
      show 64 * (64 * (v / 4096) + v / 64 % 64) + v % 64 = v by omega, hc]
  · obtain ⟨low, high, hfirst, hlow, hk, hhigh⟩ :=
      pending?_four (v := v) (by omega) (by omega)
    rw [List.cons_append, decodeFrom_first (by omega) (by omega) hfirst, List.cons_append,
      decodeFrom_next hlow hk hhigh, if_neg (by decide), List.cons_append,
      decodeFrom_inner (by omega), if_neg (by decide), List.cons_append,
      decodeFrom_inner (by omega), if_pos rfl, List.nil_append,
      show 64 * (64 * (64 * (v / 262144) + v / 4096 % 64) + v / 64 % 64) + v % 64 = v by omega, hc]

theorem decode_ofString (s : String) : decode (ofString s) = s.toList.map some := by
  rw [decode, ofString]
  induction s.toList with
  | nil => rfl
  | cons c cs ih => rw [List.flatMap_cons, decodeFrom_char, ih, List.map_cons]

/-- **Texts as bytes.** The text of the bytes of a text is that text. -/
theorem text?_ofString (s : String) : (ofString s).text? = some s := by
  have hall : (s.toList.map some).mapM id = some s.toList := by
    rw [List.mapM_map]
    exact (List.mapM_pure (m := Option) (f := id)).trans (congrArg some (List.map_id _))
  rw [text?, decode_ofString, hall, Option.map_some, String.ofList_toList]

end ScriptHost.Lua.Bytes
