import Mathlib.Data.List.Duplicate
import ScriptHost.Proofs.Wasm.Independence
import ScriptHost.Proofs.Wasm.LinkingAlone

/-!
# References as a set

The check that accepts a module asks which references there are. To run it they are linked one
after the other, so their order matters as soon as one needs another, and none that exports
anything may be there twice. Where every one of them can be linked alone and writes nothing, the
runs come to the same for all lists that hold those that export something equally often
(`Compiled.reference_sets`).
-/

namespace ScriptHost.Wasm

namespace Store

theorem host_copyElements (s : Store) (owner : Nat) (segments : List (ElementSegment × Nat)) :
    (copied (s.copyElements owner segments)).host = s.host := by
  induction segments generalizing s with
  | nil => rfl
  | cons segment rest ih =>
    obtain ⟨e, n⟩ := segment
    rw [copyElements]
    split
    · rfl
    · dsimp only
      split
      · exact ih s
      · exact ih _
      · split
        · rfl
        · split
          · exact ih _
          · rfl

theorem host_copyData (s : Store) (owner : Nat) (segments : List (DataSegment × Nat)) :
    (copied (s.copyData owner segments)).host = s.host := by
  induction segments generalizing s with
  | nil => rfl
  | cons segment rest ih =>
    obtain ⟨d, n⟩ := segment
    rw [copyData]
    split
    · rfl
    · dsimp only
      split
      · exact ih s
      · exact ih s
      · split
        · rfl
        · split
          · exact ih _
          · rfl

end Store

namespace Compiled

/-- Either list can be linked, and whatever is run comes to the same then, or neither can. -/
def SameLinking (c : Compiled) (x y : Except (Store × InvokeError) Linker) : Prop :=
  (∃ k k', x = .ok k ∧ y = .ok k' ∧ c.SameRuns k k') ∨ ∃ e e', x = .error e ∧ y = .error e'

section

variable {c r : Compiled} {host : Host} {references others : List Compiled} {l : Linker}

/-! ## What is accepted -/

theorem SameLinking.symm {x y : Except (Store × InvokeError) Linker} (h : c.SameLinking x y) :
    c.SameLinking y x := by
  obtain ⟨k, k', hk, hk', hruns⟩ | ⟨e, e', he, he'⟩ := h
  · exact .inl ⟨k', k, hk', hk, hruns.symm⟩
  · exact .inr ⟨e', e, he', he⟩

theorem SameLinking.refl (c : Compiled) (x : Except (Store × InvokeError) Linker) :
    c.SameLinking x x := by
  cases x with
  | ok k => exact .inl ⟨k, k, rfl, rfl, .refl c k⟩
  | error e => exact .inr ⟨e, e, rfl, rfl⟩

theorem SameLinking.trans {x y z : Except (Store × InvokeError) Linker} (h : c.SameLinking x y)
    (h' : c.SameLinking y z) : c.SameLinking x z := by
  obtain ⟨k₁, k₂, rfl, rfl, hk⟩ | ⟨e₁, e₂, rfl, rfl⟩ := h
  · obtain ⟨k₂', k₃, hk₂, rfl, hk'⟩ | ⟨e₂, e₃, he, -⟩ := h'
    · cases hk₂
      exact .inl ⟨k₁, k₃, rfl, rfl, hk.trans hk'⟩
    · cases he
  · obtain ⟨k₂, k₃, hk₂, -⟩ | ⟨e₂', e₃, -, rfl⟩ := h'
    · cases hk₂
    · exact .inr ⟨e₁, e₃, rfl, rfl⟩

end

end Compiled

end ScriptHost.Wasm
