import Mathlib.Data.List.Forall2
import ScriptHost.Proofs.Lua.Library

/-!
# Frames on renamed stores

Machines are another renamed if their stores are, if their frames are the same calls, renamed, and
if what waits in them goes on alike. Such machines show the same places and tracebacks in their
messages (`Traceback.levels_renamed`, `Machine.faultValue_renamed`).
-/

namespace ScriptHost.Lua

variable {ρ : Renaming} {s t : Store}

/-- What waits does the same on stores that differ by the renaming. -/
inductive Waiting.Renamed (ρ : Renaming) : Waiting → Waiting → Prop where
  | script (a : Activation) : Renamed ρ (.script a) (.script (a.rename ρ))
  | native (f : Builtin) {next other : Store → List Value → Native}
      (hn : ∀ {s t : Store}, s.Renamed ρ t → ∀ vs,
        (next s vs).Renamed ρ (other t (vs.map (Value.rename ρ)))) :
      Renamed ρ (.native f next) (.native (f.rename ρ) other)
  | attempt (f : Builtin) (handler : Option Value)
      {next other : Store → Except Value (List Value) → Native}
      (hn : ∀ {s t : Store}, s.Renamed ρ t → ∀ r,
        (next s r).Renamed ρ (other t (renameResult ρ r))) :
      Renamed ρ (.attempt f handler next)
        (.attempt (f.rename ρ) (handler.map (Value.rename ρ)) other)
  | handling : Renamed ρ .handling .handling

structure Frame.Renamed (ρ : Renaming) (f g : Frame) : Prop where
  waiting : f.waiting.Renamed ρ g.waiting
  depth : g.depth = f.depth
  nesting : g.nesting = f.nesting

/-- The frames are the same calls, in the same order. -/
abbrev Frames.Renamed (ρ : Renaming) : List Frame → List Frame → Prop :=
  List.Forall₂ (Frame.Renamed ρ)

/-- Frames that are the same calls are both none, or the same waits in the first ones. -/
@[elab_as_elim]
theorem Frames.renamed_induction {motive : ∀ fs gs, Frames.Renamed ρ fs gs → Prop}
    {fs gs : List Frame} (h : Frames.Renamed ρ fs gs) (nil : motive [] [] .nil)
    (script : ∀ (a : Activation) (d n : Nat) {fs gs} (hfs : Frames.Renamed ρ fs gs),
      motive fs gs hfs → motive (⟨.script a, d, n⟩ :: fs) (⟨.script (a.rename ρ), d, n⟩ :: gs)
        (.cons ⟨.script a, rfl, rfl⟩ hfs))
    (native : ∀ (f : Builtin) {next other : Store → List Value → Native} (hn) (d n : Nat) {fs gs}
      (hfs : Frames.Renamed ρ fs gs), motive fs gs hfs →
      motive (⟨.native f next, d, n⟩ :: fs) (⟨.native (f.rename ρ) other, d, n⟩ :: gs)
        (.cons ⟨.native f hn, rfl, rfl⟩ hfs))
    (attempt : ∀ (f : Builtin) (handler : Option Value)
      {next other : Store → Except Value (List Value) → Native} (hn) (d n : Nat) {fs gs}
      (hfs : Frames.Renamed ρ fs gs), motive fs gs hfs →
      motive (⟨.attempt f handler next, d, n⟩ :: fs)
        (⟨.attempt (f.rename ρ) (handler.map (Value.rename ρ)) other, d, n⟩ :: gs)
        (.cons ⟨.attempt f handler hn, rfl, rfl⟩ hfs))
    (handling : ∀ (d n : Nat) {fs gs} (hfs : Frames.Renamed ρ fs gs), motive fs gs hfs →
      motive (⟨.handling, d, n⟩ :: fs) (⟨.handling, d, n⟩ :: gs)
        (.cons ⟨.handling, rfl, rfl⟩ hfs)) :
    motive fs gs h := by
  induction h with
  | nil => exact nil
  | @cons f g fs gs hfg hfs ih =>
    obtain ⟨waiting, d, n⟩ := f
    obtain ⟨waiting', d', n'⟩ := g
    obtain ⟨hw, hd, hn⟩ := hfg
    obtain rfl : d' = d := hd
    obtain rfl : n' = n := hn
    cases hw with
    | script a => exact script a _ _ hfs ih
    | native f hn => exact native f hn _ _ hfs ih
    | attempt f handler hn => exact attempt f handler hn _ _ hfs ih
    | handling => exact handling _ _ hfs ih

/-! ## Calls of scripts -/

namespace Activation

variable (a : Activation)

@[simp]
theorem current?_rename : (a.rename ρ).current? = a.current? := rfl

@[simp]
theorem line_rename : (a.rename ρ).line = a.line := rfl

@[simp]
theorem place_rename : (a.rename ρ).place = a.place := rfl

@[simp]
theorem jump_rename (offset : Int) : (a.rename ρ).jump offset = (a.jump offset).rename ρ := rfl

@[simp]
theorem push_rename (v : Value) : (a.rename ρ).push (v.rename ρ) = (a.push v).rename ρ := rfl

theorem pushUnder_rename (f : Value) :
    (a.rename ρ).pushUnder (f.rename ρ) = (a.pushUnder f).rename ρ := by
  obtain ⟨closure, prototype, pc, slots, _ | ⟨object, stack⟩, many, arguments, guarded, raising,
    isTail⟩ := a <;> rfl

@[simp]
theorem cellOf_rename (slot : Nat) : (a.rename ρ).cellOf slot = ρ.cells (a.cellOf slot) :=
  getD_cells a.slots slot

theorem accept_rename (values : List Value) (want : Option Nat) :
    (a.rename ρ).accept (values.map (Value.rename ρ)) want = (a.accept values want).rename ρ := by
  cases want with
  | none => rfl
  | some n => simp [accept, rename, List.map_take]

theorem takeArguments_rename (count : Nat) (spread : Bool) :
    (a.rename ρ).takeArguments count spread =
      ((a.takeArguments count spread).1.map (Value.rename ρ),
        (a.takeArguments count spread).2.rename ρ) := by
  cases spread <;> simp [takeArguments, rename, List.map_take, List.map_drop]

end Activation

namespace Frame

variable {f g : Frame} {fs gs : List Frame}

theorem script?_renamed (h : f.Renamed ρ g) :
    g.script? = f.script?.map (Activation.rename ρ) := by
  obtain ⟨w, d, n⟩ := f
  obtain ⟨w', d', n'⟩ := g
  obtain ⟨hw, -, -⟩ := h
  cases hw <;> rfl

theorem place_renamed (h : f.Renamed ρ g) : g.place = f.place := by
  rw [place, place, script?_renamed h]
  cases f.script? <;> rfl

theorem callsPlainly_renamed (h : f.Renamed ρ g) : g.callsPlainly = f.callsPlainly := by
  rw [callsPlainly, callsPlainly, script?_renamed h]
  cases f.script? <;> rfl

theorem scripts_renamed (h : Frames.Renamed ρ fs gs) :
    gs.mapM script? = (fs.mapM script?).map (List.map (Activation.rename ρ)) := by
  induction h with
  | nil => rfl
  | cons hf _ ih =>
    rw [List.mapM_cons, List.mapM_cons, script?_renamed hf, ih]
    cases script? _ with
    | none => rfl
    | some a => cases List.mapM script? _ <;> rfl

theorem calleeName?_renamed (h : Frames.Renamed ρ fs gs) :
    calleeName? gs = calleeName? fs := by
  cases h with
  | nil => rfl
  | cons hf _ =>
    simp only [calleeName?, List.head?_cons, Option.bind_some, script?_renamed hf]
    cases script? _ <;> rfl

end Frame

/-! ## Tracebacks -/

namespace Traceback

theorem fieldName?_rename (x : Table) (f : Value) :
    fieldName? (x.rename ρ) (f.rename ρ) = fieldName? x f := by
  rw [fieldName?, fieldName?, Table.pairs_rename, List.findSome?_map]
  refine congrArg (List.findSome? · x.pairs) (funext fun pair => ?_)
  obtain ⟨key, v⟩ := pair
  cases key with
  | string name => simp only [Function.comp_apply, renamePair, Value.rename_string,
      Value.rawEquals_rename]
  | _ => rfl

theorem loadedName?_rename (h : s.Renamed ρ t) (f : Value) :
    loadedName? t (f.rename ρ) = loadedName? s f := by
  rw [loadedName?, loadedName?, h.table_fixed (by decide), Table.pairs_rename,
    List.findSome?_map]
  refine congrArg (List.findSome? · _) (funext fun pair => ?_)
  obtain ⟨key, v⟩ := pair
  cases key with
  | string name =>
    simp only [Function.comp_apply, renamePair, Value.rename_string, Value.rawEquals_rename]
    cases v with
    | table a => simp only [Value.rename_table, h.table, fieldName?_rename]
    | _ => rfl
  | _ => rfl

variable {fs gs : List Frame}

theorem calledName?_renamed (h : Frames.Renamed ρ fs gs) :
    calledName? gs.head? = calledName? fs.head? := by
  cases h with
  | nil => rfl
  | cons hf _ =>
    simp only [calledName?, List.head?_cons, Option.bind_some, Frame.script?_renamed hf]
    cases Frame.script? _ <;> rfl

theorem ofBuiltin_renamed (h : s.Renamed ρ t) (hf : Frames.Renamed ρ fs gs) (f : Builtin) :
    ofBuiltin t (f.rename ρ) gs.head? = ofBuiltin s f fs.head? := by
  have hn := loadedName?_rename h (.builtin f)
  rw [Value.rename_builtin] at hn
  rw [ofBuiltin, ofBuiltin, hn, calledName?_renamed hf]

theorem ofScript_renamed (h : s.Renamed ρ t) (hf : Frames.Renamed ρ fs gs) (a : Activation) :
    ofScript t (a.rename ρ) gs.head? = ofScript s a fs.head? := by
  have hn : loadedName? t (.closure (a.rename ρ).closure) = loadedName? s (.closure a.closure) :=
    loadedName?_rename h (.closure a.closure)
  rw [ofScript, ofScript, hn, calledName?_renamed hf]
  rfl

theorem ofFrames_renamed (h : s.Renamed ρ t) (hf : Frames.Renamed ρ fs gs) :
    ofFrames t gs = ofFrames s fs := by
  induction hf using Frames.renamed_induction with
  | nil => rfl
  | script a _ _ hfs ih => simp only [ofFrames, ofScript_renamed h hfs, ih]
  | native f _ _ _ hfs ih => simp only [ofFrames, ofBuiltin_renamed h hfs, ih]
  | attempt f _ _ _ _ hfs ih => simp only [ofFrames, ofBuiltin_renamed h hfs, ih]
  | handling _ _ _ ih => exact ih

/-- Errors come from the same calls. -/
theorem levels_renamed (h : s.Renamed ρ t) (hf : Frames.Renamed ρ fs gs) (f : Option Builtin) :
    levels t (f.map (Builtin.rename ρ)) gs = levels s f fs := by
  rw [levels, levels, ofFrames_renamed h hf]
  cases f with
  | none => rfl
  | some f =>
    simp only [Option.map_some, ofBuiltin_renamed h hf]

theorem isCaught_renamed (hf : Frames.Renamed ρ fs gs) : isCaught gs = isCaught fs := by
  induction hf using Frames.renamed_induction with
  | nil => rfl
  | attempt f => cases f <;> rfl
  | script _ _ _ _ ih | native _ _ _ _ _ ih | handling _ _ _ ih => exact ih

end Traceback

/-! ## Faults -/

namespace Machine

variable {fs gs : List Frame}

theorem depth_renamed (h : Frames.Renamed ρ fs gs) : depth gs = depth fs := by
  cases h with
  | nil => rfl
  | cons hf _ => exact hf.depth

theorem nesting_renamed (h : Frames.Renamed ρ fs gs) : nesting gs = nesting fs := by
  cases h with
  | nil => rfl
  | cons hf _ => exact hf.nesting

theorem pushed_renamed (h : Frames.Renamed ρ fs gs) {w w' : Waiting} (hw : w.Renamed ρ w')
    (nested : Bool) : Frames.Renamed ρ (pushed fs w nested) (pushed gs w' nested) := by
  refine .cons ⟨hw, ?_, ?_⟩ h
  · rw [depth_renamed h]
  · rw [nesting_renamed h]

theorem argumentText_renamed (h : Frames.Renamed ρ fs gs) (f : Option Builtin) (position : Nat)
    (reason : Bytes) :
    argumentText gs (f.map (Builtin.rename ρ)) position reason =
      argumentText fs f position reason := by
  have hq : (f.map (Builtin.rename ρ)).bind Library.qualifiedName? =
      f.bind Library.qualifiedName? := by
    cases f with
    | none => rfl
    | some f => exact Library.qualifiedName?_rename f
  rw [argumentText, argumentText, Frame.calleeName?_renamed h, hq]

theorem framePlace_renamed (h : Frames.Renamed ρ fs gs) (i : Nat) :
    (gs[i]?.map Frame.place).getD [] = (fs[i]?.map Frame.place).getD [] := by
  induction h generalizing i with
  | nil => rfl
  | cons hf _ ih =>
    cases i with
    | zero => simp [Frame.place_renamed hf]
    | succ i => exact ih i

/-- A fault raises the same value. -/
theorem faultValue_renamed (h : Frames.Renamed ρ fs gs) (f : Option Builtin) (e : Fault) :
    faultValue gs (f.map (Builtin.rename ρ)) (e.rename ρ) = (faultValue fs f e).rename ρ := by
  cases e with
  | value v => rfl
  | message text level => exact congrArg (Value.string <| · ++ text) (framePlace_renamed h _)
  | argument position reason =>
    have hp := framePlace_renamed h 0
    rw [← List.head?_eq_getElem?, ← List.head?_eq_getElem?] at hp
    simp only [Fault.rename, faultValue, hp, argumentText_renamed h]
    rfl

theorem handler?_renamed (h : Frames.Renamed ρ fs gs) :
    handler? gs = (handler? fs).map (Value.rename ρ) := by
  induction h using Frames.renamed_induction with
  | nil | attempt => rfl
  | script _ _ _ _ ih | native _ _ _ _ _ ih | handling _ _ _ ih => exact ih

end Machine

end ScriptHost.Lua
