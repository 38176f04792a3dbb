import ScriptHost.Proofs.Text.Utf8
import ScriptHost.Wasm.Machine

/-!
# Bytes and texts in memory

Bytes that are written to a memory stand there afterwards, and every other byte is what it was
(`Memory.Holds`). A number of 32 bits that a script passes counts or addresses something if it is
not negative (`Host.index?_eq_some_iff`). A function of the host sees one memory, the one that its
caller exports (`Store.memoryOf`), and changes nothing else in the store but the state of the host
(`Machine.callHost_keeps`, `Machine.callHost_writes`).

A script passes a text as a range of its memory. Which range holds which text is told by the numbers
that the script writes and the bytes that stand there (`Passes`), and the host reads just that
(`Host.readText_eq_some_iff`). What it does with the text is one change of its own state
(`Host.Hears`). A range that holds no text changes nothing, and the script goes on in either case
(`Machine.callHost_text`).
-/

namespace ScriptHost.Wasm

/-! ## Ranges of memory -/

namespace Memory

variable {m : Memory} {start n i : Nat} {bytes : List UInt8}

@[simp]
theorem pages_put (m : Memory) (start : Nat) (bytes : List UInt8) :
    (m.put start bytes).pages = m.pages := by
  induction bytes generalizing m start with
  | nil => rfl
  | cons b rest ih => exact ih { m with cells := m.cells.insert start b } (start + 1)

@[simp]
theorem max_put (m : Memory) (start : Nat) (bytes : List UInt8) :
    (m.put start bytes).max = m.max := by
  induction bytes generalizing m start with
  | nil => rfl
  | cons b rest ih => exact ih { m with cells := m.cells.insert start b } (start + 1)

theorem get_insert (m : Memory) (start : Nat) (b : UInt8) (i : Nat) :
    get { m with cells := m.cells.insert start b } i = if i = start then b else m.get i := by
  unfold get
  rw [Std.HashMap.getD_insert]
  by_cases h : i = start
  · simp [h]
  · simp [h, Ne.symm h]

theorem get_put_of_lt (h : i < start) : (m.put start bytes).get i = m.get i := by
  induction bytes generalizing m start with
  | nil => rfl
  | cons b rest ih =>
    have hi : i ≠ start := by omega
    rw [put, ih (by omega), get_insert, if_neg hi]

theorem get_put_of_le (h : start + bytes.length ≤ i) : (m.put start bytes).get i = m.get i := by
  induction bytes generalizing m start with
  | nil => rfl
  | cons b rest ih =>
    rw [List.length_cons] at h
    have hi : i ≠ start := by omega
    rw [put, ih (by omega), get_insert, if_neg hi]

theorem get_put_add (m : Memory) (start : Nat) {b : UInt8} (h : bytes[i]? = some b) :
    (m.put start bytes).get (start + i) = b := by
  induction bytes generalizing m start i with
  | nil => cases h
  | cons c rest ih =>
    rw [put]
    cases i with
    | zero =>
      cases h
      have hhead := get_insert m start b start
      rw [if_pos rfl] at hhead
      exact (get_put_of_lt (Nat.lt_succ_self start)).trans hhead
    | succ i =>
      rw [← Nat.add_assoc, Nat.add_right_comm]
      exact ih _ _ h

/-- The second memory is the first with the bytes from the address on: these stand there, and all
others are what they were. -/
structure Holds (before : Memory) (start : Nat) (bytes : List UInt8) (after : Memory) : Prop where
  pages : after.pages = before.pages
  max : after.max = before.max
  inside (i : Nat) (b : UInt8) (h : bytes[i]? = some b) : after.get (start + i) = b
  outside (i : Nat) (h : i < start ∨ start + bytes.length ≤ i) : after.get i = before.get i

theorem holds_put (m : Memory) (start : Nat) (bytes : List UInt8) :
    m.Holds start bytes (m.put start bytes) where
  pages := pages_put m start bytes
  max := max_put m start bytes
  inside _ _ h := get_put_add m start h
  outside _ h := h.elim get_put_of_lt get_put_of_le

theorem write?_cases (m : Memory) (start : Nat) (bytes : List UInt8) :
    (start + bytes.length ≤ m.size ∧ ∃ after, m.write? start bytes = some after ∧
        m.Holds start bytes after) ∨
      (¬ start + bytes.length ≤ m.size ∧ m.write? start bytes = none) := by
  rw [write?]
  by_cases h : start + bytes.length ≤ m.size
  · rw [if_pos h]
    exact .inl ⟨h, _, rfl, m.holds_put start bytes⟩
  · rw [if_neg h]
    exact .inr ⟨h, rfl⟩

theorem bytesAt_eq (m : Memory) (start n : Nat) :
    m.bytesAt start n = (List.range n).map fun i => m.get (start + i) := by
  induction n generalizing start with
  | zero => rfl
  | succ n ih =>
    have hnext : (fun i => m.get (start + 1 + i)) = (fun i => m.get (start + i)) ∘ Nat.succ :=
      funext fun i => by rw [Function.comp_apply, Nat.succ_eq_add_one, Nat.add_right_comm]; rfl
    rw [bytesAt, ih, List.range_succ_eq_map, List.map_cons, List.map_map, hnext]
    rfl

theorem read?_eq_some_iff {m : Memory} {start n : Nat} {bytes : List UInt8} :
    m.read? start n = some bytes ↔
      start + n ≤ m.size ∧ bytes = (List.range n).map fun i => m.get (start + i) := by
  rw [read?, bytesAt_eq]
  split
  · rename_i h
    rw [Option.some.injEq]
    exact ⟨fun hb => ⟨h, hb.symm⟩, fun hb => hb.2.symm⟩
  · rename_i h
    exact ⟨nofun, fun hb => absurd hb.1 h⟩

end Memory

/-! ## Numbers of scripts -/

/-- A number of 32 bits as scripts write it. -/
def signed (n : UInt32) : Int := toSigned 32 n.toNat

/-- A number of 64 bits as scripts write it. -/
def signed64 (n : UInt64) : Int := toSigned 64 n.toNat

section

variable {n : UInt32} {k : Nat}

theorem signed_eq (n : UInt32) :
    (n.toNat < 0x80000000 ∧ signed n = n.toNat) ∨
      (0x80000000 ≤ n.toNat ∧ signed n = n.toNat - 0x100000000) := by
  unfold signed toSigned
  simp only [Nat.pow_eq, Nat.reduceSub, Nat.reducePow]
  have := n.toNat_lt
  split <;> omega

theorem signed64_eq (n : UInt64) :
    (n.toNat < 0x8000000000000000 ∧ signed64 n = n.toNat) ∨
      (0x8000000000000000 ≤ n.toNat ∧ signed64 n = n.toNat - 0x10000000000000000) := by
  unfold signed64 toSigned
  simp only [Nat.pow_eq, Nat.reduceSub, Nat.reducePow]
  have := n.toNat_lt
  split <;> omega

theorem signed_lt (n : UInt32) : signed n < 0x80000000 := by
  have := n.toNat_lt
  have := signed_eq n
  omega

theorem signed_of_lt (h : k < 0x80000000) : signed k.toUInt32 = k := by
  have hk : k.toUInt32.toNat = k := by
    rw [Nat.toUInt32, UInt32.toNat_ofNat', Nat.mod_eq_of_lt (by omega)]
  have := signed_eq k.toUInt32
  omega

theorem signed_injective {a b : UInt32} (h : signed a = signed b) : a = b := by
  have := a.toNat_lt
  have := b.toNat_lt
  have := signed_eq a
  have := signed_eq b
  exact UInt32.toNat_inj.1 (by omega)

namespace Host

theorem signed_failure : signed failure = -1 := by decide

/-- What counts or addresses something is not negative. -/
theorem index?_eq_some_iff : index? n = some k ↔ signed n = k := by
  unfold index?
  simp only [Nat.pow_eq, Nat.reducePow]
  have := n.toNat_lt
  have := signed_eq n
  split
  · rw [Option.some.injEq]
    omega
  · refine iff_of_false nofun ?_
    omega

theorem index?_eq_none_iff : index? n = none ↔ signed n < 0 := by
  unfold index?
  simp only [Nat.pow_eq, Nat.reducePow]
  have := n.toNat_lt
  have := signed_eq n
  split
  · refine iff_of_false nofun ?_
    omega
  · refine iff_of_true rfl ?_
    omega

end Host

end

/-! ## Texts in memory -/

/-- The text that an address and a length stand for, as a script writes them, in the memory that it
exports. An empty text needs no memory, and no address either. -/
inductive Passes (memory : Option Memory) (ptr len : Int) (text : String) : Prop where
  | empty (hlen : len = 0) (htext : text = "")
  | range {m : Memory} (hmemory : memory = some m) (hptr : 0 ≤ ptr) (hlen : 0 < len)
    (hfits : ptr + len ≤ m.size)
    (hbytes : text.toUTF8.toList = (List.range len.toNat).map fun i => m.get (ptr.toNat + i))

namespace Host

variable {memory : Option Memory} {ptr len : UInt32} {text : String}

/-- The host reads the text that a script passes, and no other. -/
theorem readText_eq_some_iff :
    readText memory ptr len = some text ↔ Passes memory (signed ptr) (signed len) text := by
  have hzero : signed 0 = 0 := by decide
  unfold readText
  by_cases hlen : len = 0
  · rw [if_pos hlen, hlen, hzero, Option.some.injEq]
    constructor
    · rintro rfl
      exact .empty rfl rfl
    · rintro (⟨-, htext⟩ | ⟨-, -, hlen, -, -⟩)
      · exact htext.symm
      · omega
  · have hne : signed len ≠ 0 := fun h => hlen (signed_injective (h.trans hzero.symm))
    rw [if_neg hlen]
    simp only [Option.bind_eq_bind, Option.bind_eq_some_iff, index?_eq_some_iff,
      Memory.read?_eq_some_iff, Text.fromUTF8?_eq_some_iff]
    constructor
    · rintro ⟨start, hptr, n, hn, m, hmemory, bytes, ⟨hfits, hbytes⟩, htext⟩
      rw [hptr, hn]
      exact .range hmemory (by omega) (by omega) (by omega) (htext.trans hbytes)
    · rintro (⟨h, -⟩ | ⟨hmemory, hptr, hlen, hfits, hbytes⟩)
      · exact absurd h hne
      · exact ⟨(signed ptr).toNat, by omega, (signed len).toNat, by omega, _, hmemory, _,
          ⟨by omega, rfl⟩, hbytes⟩

/-- The address of an empty text may be any number. -/
example : readText none 0xffffffff 0 = some "" := rfl

theorem readText_eq_none_iff :
    readText memory ptr len = none ↔ ∀ text, ¬ Passes memory (signed ptr) (signed len) text := by
  rw [Option.eq_none_iff_forall_ne_some]
  exact forall_congr' fun text => not_congr readText_eq_some_iff

end Host

/-! ## The memory of a caller -/

namespace Store

/-- The memory that a caller exports, with its place. Code that is not of an instance has none. -/
def memoryOf (s : Store) (caller : Option Nat) : Option (Nat × Memory) := do
  let address ← caller.bind s.exportedMemory?
  return (address, ← s.memories[address]?)

theorem memoryOf_eq_some {s : Store} {caller : Option Nat} {a : Nat} {m : Memory}
    (h : s.memoryOf caller = some (a, m)) :
    caller.bind s.exportedMemory? = some a ∧ s.memories[a]? = some m := by
  unfold memoryOf at h
  obtain ⟨a', ha, h⟩ := Option.bind_eq_some_iff.1 h
  obtain ⟨m', hm, heq⟩ := Option.bind_eq_some_iff.1 h
  cases heq
  exact ⟨ha, hm⟩

theorem setMemory_self {s : Store} {a : Nat} {m : Memory} (h : s.memories[a]? = some m) :
    s.setMemory a m = s := by
  obtain ⟨ha, rfl⟩ := Array.getElem?_eq_some_iff.1 h
  rw [setMemory, Array.setIfInBounds, dif_pos ha, Array.set_getElem_self]

end Store

namespace Machine

variable {s : Store} {caller : Option Nat} {f : HostFunction} {args : List Value}

/-- The memory that a function of the host is given. -/
theorem memory_of_caller (s : Store) (caller : Option Nat) :
    (caller.bind s.exportedMemory?).bind (s.memories[·]?) = (s.memoryOf caller).map Prod.snd := by
  unfold Store.memoryOf
  cases caller.bind s.exportedMemory? with
  | none => rfl
  | some a => cases h : s.memories[a]? <;> simp [bind, h]

/-- A function of the host that gives its memory back as it was changes no memory. -/
theorem callHost_keeps (host : Host) {results : List Value}
    (h : s.host.call ((s.memoryOf caller).map Prod.snd) f args =
      .ok (host, (s.memoryOf caller).map Prod.snd, results)) :
    callHost s caller f args = .ok ({ s with host }, results) := by
  rw [← memory_of_caller] at h
  unfold callHost
  dsimp only
  rw [h]
  dsimp only
  split
  · rename_i a m ha hm
    rw [ha] at hm
    have hself : { s with host }.setMemory a m = { s with host } := Store.setMemory_self hm
    rw [hself]
  · rfl

/-- One that changes its memory changes the one that the caller exports. -/
theorem callHost_writes (host : Host) {a : Nat} {before after : Memory} {results : List Value}
    (hm : s.memoryOf caller = some (a, before))
    (h : s.host.call (some before) f args = .ok (host, some after, results)) :
    callHost s caller f args = .ok ({ s with host }.setMemory a after, results) := by
  have hgiven := memory_of_caller s caller
  have ha := (Store.memoryOf_eq_some hm).1
  rw [hm] at hgiven
  unfold callHost
  dsimp only
  rw [hgiven, Option.map_some, h, ha]

end Machine

/-! ## Calls with texts -/

/-- The functions of the host that are passed a text. -/
def HostFunction.hearing : List HostFunction := [.print, .printError, .setMessage]

/-- What the host does with a text: an entry on one of the channels, or its message. -/
inductive Host.Hears (h : Host) (text : String) : HostFunction → Host → Prop where
  | print : h.Hears text .print { h with output := h.output ++ [⟨.out, text⟩] }
  | printError : h.Hears text .printError { h with output := h.output ++ [⟨.err, text⟩] }
  | setMessage : h.Hears text .setMessage { h with message := text }

namespace Host

variable {memory : Option Memory} {f : HostFunction}

/-- The host hears the text that is passed, or does nothing if there is none. It gives the memory
back and has no results. -/
theorem call_text (h : Host) (memory : Option Memory) (hf : f ∈ HostFunction.hearing)
    (ptr len : UInt32) :
    (∃ text h', Passes memory (signed ptr) (signed len) text ∧ h.Hears text f h' ∧
        h.call memory f [.i32 ptr, .i32 len] = .ok (h', memory, [])) ∨
      (∀ text, ¬ Passes memory (signed ptr) (signed len) text) ∧
        h.call memory f [.i32 ptr, .i32 len] = .ok (h, memory, []) := by
  have hcases : f = .print ∨ f = .printError ∨ f = .setMessage := by
    simpa [HostFunction.hearing] using hf
  cases hread : readText memory ptr len with
  | none =>
    refine .inr ⟨readText_eq_none_iff.1 hread, ?_⟩
    unfold call
    obtain rfl | rfl | rfl := hcases <;> dsimp only <;> rw [hread]
  | some text =>
    have hpasses := readText_eq_some_iff.1 hread
    refine .inl ?_
    unfold call
    obtain rfl | rfl | rfl := hcases <;> dsimp only <;> rw [hread]
    · exact ⟨text, _, hpasses, .print, rfl⟩
    · exact ⟨text, _, hpasses, .printError, rfl⟩
    · exact ⟨text, _, hpasses, .setMessage, rfl⟩

end Host

/-- A script that passes a text goes on after the call. The host has heard the text and nothing else
has changed; if there is no text, nothing has changed at all. -/
theorem Machine.callHost_text (s : Store) (caller : Option Nat) {f : HostFunction}
    (hf : f ∈ HostFunction.hearing) (ptr len : UInt32) :
    (∃ text host, Passes ((s.memoryOf caller).map Prod.snd) (signed ptr) (signed len) text ∧
        s.host.Hears text f host ∧
        callHost s caller f [.i32 ptr, .i32 len] = .ok ({ s with host }, [])) ∨
      (∀ text, ¬ Passes ((s.memoryOf caller).map Prod.snd) (signed ptr) (signed len) text) ∧
        callHost s caller f [.i32 ptr, .i32 len] = .ok (s, []) := by
  obtain ⟨text, host, hpasses, hhears, hcall⟩ | ⟨hnone, hcall⟩ :=
    s.host.call_text ((s.memoryOf caller).map Prod.snd) hf ptr len
  · exact .inl ⟨text, host, hpasses, hhears, callHost_keeps host hcall⟩
  · exact .inr ⟨hnone, callHost_keeps s.host hcall⟩

end ScriptHost.Wasm
