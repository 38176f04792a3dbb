import Mathlib.Data.List.Forall2
import Mathlib.Tactic.Tauto
import ScriptHost.Proofs.Text.Utf8
import ScriptHost.Proofs.Wasm.Memory

/-!
# Reading handles and the selection

What scripts are told of the handles of an invocation and of the elements that are selected. A
request for a handle copies as much of its JSON as is asked for, all of it or nothing where it does
not fit into memory, and touches no other byte (`Delivery`); the length that scripts are told is one
that they can ask for (`handles_delivered`). The selection is read element by element. An element
whose number has 64 bits reads as the failure that stands for no element, every other one as it is
(`selection_read`).
-/

namespace ScriptHost

/-- The bytes of the JSON text of a handle by its number: the data of the command, the sender of an
event and its arguments. -/
def Handles.json? (hs : Handles) (id : Int) : Option (List UInt8) :=
  if id = 0 then some hs.commandData.render.toUTF8.toList
  else if id = 1 then some hs.eventSender.render.toUTF8.toList
  else if id = 2 then some hs.eventArgs.render.toUTF8.toList
  else none

namespace Wasm

/-- The host of a run with the handles, whatever the run has written so far. -/
def Host.serving (hs : Handles) (output : Entries) (message : String) : Host :=
  { Host.ofHandles hs with output, message }

/-- A store whose host serves the handles. -/
def Store.serving (s : Store) (hs : Handles) (output : Entries) (message : String) : Store :=
  { s with host := .serving hs output message }

/-! ## Copying to memory -/

namespace Host

variable {ptr capacity : UInt32}

/-- Bytes are written as many as may be: to a range that lies inside the memory, or none. -/
theorem writeBytes_cases (memory : Option Memory) (ptr capacity : UInt32) (bytes : List UInt8) :
    (signed capacity < 0 ∧ writeBytes memory ptr capacity bytes = none) ∨
    (0 ≤ signed capacity ∧ min bytes.length (signed capacity).toNat = 0 ∧
      writeBytes memory ptr capacity bytes = some (0, memory)) ∨
    (0 ≤ signed capacity ∧ 0 < min bytes.length (signed capacity).toNat ∧
      ((∃ before after, 0 ≤ signed ptr ∧ memory = some before ∧
          signed ptr + min bytes.length (signed capacity).toNat ≤ before.size ∧
          before.Holds (signed ptr).toNat (bytes.take (min bytes.length (signed capacity).toNat))
            after ∧
          writeBytes memory ptr capacity bytes =
            some ((min bytes.length (signed capacity).toNat).toUInt32, some after)) ∨
        ((∀ before, 0 ≤ signed ptr → memory = some before →
            (before.size : Int) < signed ptr + min bytes.length (signed capacity).toNat) ∧
          writeBytes memory ptr capacity bytes = none))) := by
  unfold writeBytes
  cases hc : index? capacity with
  | none => exact .inl ⟨index?_eq_none_iff.1 hc, rfl⟩
  | some c =>
    have hsigned := index?_eq_some_iff.1 hc
    have htoNat : (signed capacity).toNat = c := by omega
    have hnonneg : 0 ≤ signed capacity := by omega
    simp only [bind, Option.bind_some, htoNat]
    by_cases hn : min bytes.length c = 0
    · rw [if_pos hn]
      exact .inr (.inl ⟨hnonneg, hn, rfl⟩)
    · rw [if_neg hn]
      refine .inr (.inr ⟨hnonneg, by omega, ?_⟩)
      cases hp : index? ptr with
      | none =>
        have hneg := index?_eq_none_iff.1 hp
        exact .inr ⟨fun _ h => by omega, rfl⟩
      | some start =>
        have hstart := index?_eq_some_iff.1 hp
        cases memory with
        | none => exact .inr ⟨nofun, rfl⟩
        | some before =>
          have hlength : (bytes.take (min bytes.length c)).length = min bytes.length c := by
            rw [List.length_take]
            omega
          obtain ⟨hfit, after, hw, hholds⟩ | ⟨hfit, hw⟩ :=
            before.write?_cases start (bytes.take (min bytes.length c))
          · rw [hlength] at hfit
            refine .inl ⟨before, after, by omega, rfl, by omega, ?_, ?_⟩
            · rwa [show (signed ptr).toNat = start by omega]
            · simp only [Option.bind_some, hw]
              rfl
          · rw [hlength] at hfit
            refine .inr ⟨fun m _ hm => ?_, ?_⟩
            · cases hm
              omega
            · simp only [Option.bind_some, hw, Option.bind_none]

end Host

/-! ## Handles -/

/-- What a request for a range of a text comes to: the answer to the script, and the store. At most
`len` bytes are copied to the address `ptr`. -/
inductive Delivery (s : Store) (caller : Option Nat) (json : Option (List UInt8)) (ptr len : Int) :
    Int → Store → Prop where
  /-- The bytes stand in the memory that the caller exports, and no other byte has changed. -/
  | copied {text : List UInt8} {n a : Nat} {before after : Memory} (hj : json = some text)
      (hl : 0 ≤ len) (hn : n = min text.length len.toNat) (hpos : 0 < n) (hp : 0 ≤ ptr)
      (hm : s.memoryOf caller = some (a, before)) (hfit : ptr + n ≤ before.size)
      (hw : before.Holds ptr.toNat (text.take n) after) :
      Delivery s caller json ptr len n (s.setMemory a after)
  /-- No byte is to be copied, so neither address nor memory matter. -/
  | nothing {text : List UInt8} (hj : json = some text) (hl : 0 ≤ len)
      (hn : min text.length len.toNat = 0) : Delivery s caller json ptr len 0 s
  /-- There is no such text, or its bytes do not fit in. -/
  | refused (h : ∀ text, json = some text → 0 ≤ len → 0 < min text.length len.toNat ∧
      ∀ a memory, 0 ≤ ptr → s.memoryOf caller = some (a, memory) →
        (memory.size : Int) < ptr + min text.length len.toNat) :
      Delivery s caller json ptr len (-1) s

section

variable {hs : Handles} {output : Entries} {message : String} {s : Store} {caller : Option Nat}
  {id ptr len : UInt32}

theorem handle?_serving (hs : Handles) (output : Entries) (message : String) (id : UInt32) :
    ((Host.serving hs output message).handle? id).map (fun text => text.toUTF8.toList) =
      hs.json? (signed id) := by
  unfold Host.handle? Handles.json?
  cases hi : Host.index? id with
  | none =>
    have hneg := Host.index?_eq_none_iff.1 hi
    rw [if_neg (by omega), if_neg (by omega), if_neg (by omega)]
    rfl
  | some k =>
    have hk := Host.index?_eq_some_iff.1 hi
    rw [hk]
    match k with
    | 0 | 1 | 2 => rfl
    | k + 3 =>
      rw [if_neg (by omega), if_neg (by omega), if_neg (by omega)]
      rfl

/-- The answer to a request for a handle. -/
theorem handleRead_delivery (hs : Handles) (output : Entries) (message : String) (s : Store)
    (caller : Option Nat) (id ptr len : UInt32) :
    ∃ answer s',
      Machine.callHost (s.serving hs output message) caller .handleRead
        [.i32 id, .i32 ptr, .i32 len] = .ok (s', [.i32 answer]) ∧
      Delivery (s.serving hs output message) caller (hs.json? (signed id)) (signed ptr)
        (signed len) (signed answer) s' := by
  have hjson := handle?_serving hs output message id
  generalize hserved : s.serving hs output message = served
  have hhost : served.host = .serving hs output message := hserved ▸ rfl
  -- a request that is refused or asks for nothing leaves the memory as it is
  have unchanged {answer : UInt32}
      (h : served.host.handleRead ((served.memoryOf caller).map Prod.snd) id ptr len =
        (answer, (served.memoryOf caller).map Prod.snd)) :
      Machine.callHost served caller .handleRead [.i32 id, .i32 ptr, .i32 len] =
        .ok (served, [.i32 answer]) := by
    refine Machine.callHost_keeps served.host ?_
    unfold Host.call
    dsimp only
    rw [h]
  cases htext : served.host.handle? id with
  | none =>
    rw [hhost] at htext
    rw [htext, Option.map_none] at hjson
    refine ⟨Host.failure, served, unchanged ?_, ?_⟩
    · rw [Host.handleRead, hhost, htext]
      rfl
    · rw [Host.signed_failure, ← hjson]
      exact .refused nofun
  | some text =>
    have htext' := htext
    rw [hhost] at htext
    rw [htext, Option.map_some] at hjson
    have hread : served.host.handleRead ((served.memoryOf caller).map Prod.snd) id ptr len =
        (Host.writeBytes ((served.memoryOf caller).map Prod.snd) ptr len
          text.toUTF8.toList).getD (Host.failure, (served.memoryOf caller).map Prod.snd) := by
      rw [Host.handleRead, htext', Option.bind_some]
      cases Host.writeBytes _ ptr len _ <;> rfl
    rw [← hjson]
    obtain ⟨hlen, hw⟩ | ⟨hlen, hn, hw⟩ | ⟨hlen, hn, ⟨before, after, hp, hm, hfit, hholds, hw⟩ |
      ⟨hno, hw⟩⟩ := Host.writeBytes_cases ((served.memoryOf caller).map Prod.snd) ptr len
        text.toUTF8.toList
    · rw [hw] at hread
      refine ⟨Host.failure, served, unchanged hread, ?_⟩
      rw [Host.signed_failure]
      exact .refused fun _ _ h => by omega
    · rw [hw] at hread
      exact ⟨0, served, unchanged hread, .nothing rfl hlen hn⟩
    · rw [hw] at hread
      obtain ⟨⟨a, m⟩, hmemory, rfl⟩ := Option.map_eq_some_iff.1 hm
      have hbound : min text.toUTF8.toList.length (signed len).toNat < 0x80000000 := by
        have := signed_lt len
        omega
      refine ⟨(min text.toUTF8.toList.length (signed len).toNat).toUInt32,
        served.setMemory a after,
        Machine.callHost_writes served.host hmemory ?_, ?_⟩
      · rw [hmemory, Option.map_some] at hread
        unfold Host.call
        dsimp only
        rw [hread, Option.getD_some]
      · rw [signed_of_lt hbound]
        exact .copied rfl hlen rfl hn hp hmemory hfit hholds
    · rw [hw] at hread
      refine ⟨Host.failure, served, unchanged hread, ?_⟩
      rw [Host.signed_failure]
      refine .refused fun other hother _ => ?_
      cases hother
      refine ⟨hn, fun a memory hp hm => hno memory hp ?_⟩
      rw [hm]
      rfl

/-- The length that scripts are told of a handle: that of its JSON, if it is one of 31 bits. -/
theorem handleLength_answer (hs : Handles) (output : Entries) (message : String) (s : Store)
    (caller : Option Nat) (id : UInt32) :
    ∃ answer, Machine.callHost (s.serving hs output message) caller .handleLength [.i32 id] =
        .ok (s.serving hs output message, [.i32 answer]) ∧
      ((signed answer = -1 ∧ ∀ text, hs.json? (signed id) = some text → 0x80000000 ≤ text.length) ∨
        ∃ text, hs.json? (signed id) = some text ∧ signed answer = text.length) := by
  have hjson := handle?_serving hs output message id
  refine ⟨(Host.serving hs output message).handleLength id, Machine.callHost_keeps _ rfl, ?_⟩
  unfold Host.handleLength
  rw [← hjson]
  cases (Host.serving hs output message).handle? id with
  | none => exact .inl ⟨Host.signed_failure, nofun⟩
  | some text =>
    dsimp only [Option.map_some, Host.count]
    rw [← Text.length_toList_toUTF8]
    split
    · rename_i h
      exact .inr ⟨_, rfl, signed_of_lt h⟩
    · rename_i h
      refine .inl ⟨Host.signed_failure, fun other hother => ?_⟩
      cases hother
      exact Nat.le_of_not_lt h

/-- **Handles are delivered as a whole or not at all.** A request for a handle answers how many
bytes were copied: as many as were asked for and are there. All of them stand at the address then,
and no other byte has changed; if they do not all fit in, the answer is -1 and nothing has changed.
Asking for the length that scripts are told delivers the whole JSON, wherever it fits in. -/
theorem handles_delivered (hs : Handles) (output : Entries) (message : String) (s : Store)
    (caller : Option Nat) (id : UInt32) :
    (∀ ptr len, ∃ answer s',
      Machine.callHost (s.serving hs output message) caller .handleRead
        [.i32 id, .i32 ptr, .i32 len] = .ok (s', [.i32 answer]) ∧
      Delivery (s.serving hs output message) caller (hs.json? (signed id)) (signed ptr)
        (signed len) (signed answer) s') ∧
    ∃ length, Machine.callHost (s.serving hs output message) caller .handleLength [.i32 id] =
        .ok (s.serving hs output message, [.i32 length]) ∧
      ((signed length = -1 ∧ ∀ text, hs.json? (signed id) = some text → 0x80000000 ≤ text.length) ∨
        ∃ text, hs.json? (signed id) = some text ∧ signed length = text.length ∧
          ∀ ptr a before, 0 ≤ signed ptr →
            (s.serving hs output message).memoryOf caller = some (a, before) →
            signed ptr + signed length ≤ before.size →
            ∃ after, before.Holds (signed ptr).toNat text after ∧
              Machine.callHost (s.serving hs output message) caller .handleRead
                [.i32 id, .i32 ptr, .i32 length] =
              .ok ((s.serving hs output message).setMemory a after, [.i32 length])) := by
  refine ⟨handleRead_delivery hs output message s caller id, ?_⟩
  obtain ⟨length, hlength, hnone | ⟨text, hjson, hl⟩⟩ :=
    handleLength_answer hs output message s caller id
  · exact ⟨length, hlength, .inl hnone⟩
  refine ⟨length, hlength, .inr ⟨text, hjson, hl, fun ptr a before hp hm hfit => ?_⟩⟩
  obtain ⟨answer, s', hcall, hd⟩ := handleRead_delivery hs output message s caller id ptr length
  have hmin : min text.length (signed length).toNat = text.length := by omega
  rw [hjson] at hd
  generalize hanswer : signed answer = n at hd
  cases hd with
  | copied hj _ hn _ _ hm' _ hw =>
    cases hj
    cases hm.symm.trans hm'
    rw [hmin] at hn
    subst hn
    rw [List.take_length] at hw
    have hsame : answer = length := signed_injective (hanswer.trans hl.symm)
    exact ⟨_, hw, hsame ▸ hcall⟩
  | nothing hj _ hn =>
    cases hj
    have hempty : text = [] := List.eq_nil_of_length_eq_zero (hmin.symm.trans hn)
    subst hempty
    have hsame : answer = length := signed_injective (hanswer.trans hl.symm)
    refine ⟨before, ⟨rfl, rfl, nofun, fun _ _ => rfl⟩, ?_⟩
    rw [Store.setMemory_self (Store.memoryOf_eq_some hm).2]
    exact hsame ▸ hcall
  | refused h =>
    have hsize := (h text rfl (by omega)).2 a before hp hm
    omega

end

/-! ## The selection -/

/-- What a script reads of the selection at an index. -/
def Selected (s : Store) (caller : Option Nat) (i : UInt32) (n : Int) : Prop :=
  ∃ got, Machine.callHost s caller .selectionGet [.i32 i] = .ok (s, [.i64 got]) ∧ signed64 got = n

/-- What a script is told of the length of the selection. -/
def SelectedLength (s : Store) (caller : Option Nat) (n : Int) : Prop :=
  ∃ got, Machine.callHost s caller .selectionLength [] = .ok (s, [.i32 got]) ∧ signed got = n

/-- The number of an element as scripts read it: they have no number of 64 bits. -/
def elementRead (id : UInt64) : Int := if id.toNat < 0x8000000000000000 then id.toNat else -1

section

variable {hs : Handles} {s : Store} {caller : Option Nat} {i : UInt32} {n other : Int} {k : Nat}
  {id : UInt64}

theorem Selected.unique (h : Selected s caller i n) (h' : Selected s caller i other) :
    n = other := by
  obtain ⟨got, hcall, rfl⟩ := h
  obtain ⟨got', hcall', rfl⟩ := h'
  cases hcall.symm.trans hcall'
  rfl

theorem SelectedLength.unique (h : SelectedLength s caller n)
    (h' : SelectedLength s caller other) : n = other := by
  obtain ⟨got, hcall, rfl⟩ := h
  obtain ⟨got', hcall', rfl⟩ := h'
  cases hcall.symm.trans hcall'
  rfl

end

section

variable (hs : Handles) (output : Entries) (message : String) (s : Store) (caller : Option Nat)
  {i : UInt32} {k : Nat} {id : UInt64}

/-- What is read at an index: the element there, and the failure where there is none. -/
theorem selected (i : UInt32) :
    Selected (s.serving hs output message) caller i
      (match (Host.index? i).bind fun k => hs.selection[k]? with
        | some id => elementRead id
        | none => -1) := by
  refine ⟨(Host.serving hs output message).selectionGet i, Machine.callHost_keeps _ rfl, ?_⟩
  have hfailure : signed64 0xffffffffffffffff = -1 := by decide
  have hselection : (Host.serving hs output message).selection = hs.selection := rfl
  rw [Host.selectionGet, hselection]
  cases (Host.index? i).bind fun k => hs.selection[k]? with
  | none => exact hfailure
  | some id =>
    have hsigned := signed64_eq id
    have hread : Nat.pow 2 63 = 0x8000000000000000 := by decide
    dsimp only [elementRead]
    rw [hread]
    by_cases hsmall : id.toNat < 0x8000000000000000
    · rw [if_pos hsmall, if_pos hsmall]
      omega
    · rw [if_neg hsmall, if_neg hsmall]
      exact hfailure

end

end Wasm

end ScriptHost
