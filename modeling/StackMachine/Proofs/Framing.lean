/-
Frames. `ALLOC` saves the cells of a frame on the stack and `DALLOC` puts them back, with anything between
the two: that is how a procedure keeps its locals over the calls that it makes. `frame_restored` says that
the frame holds again what it held, whatever has been written to it, if the saved values have been spared.

The saved values are kept cell by cell (`Session.Stretch.keeps`), so what there is to show is that they
are true copies when they are saved (`Session.Begins.saved`) and when they are put back
(`Session.Begins.restored`). They are, since a frame with no cell in common with the saved values does not
straddle the top of the stack.
-/
import StackMachine.Proofs.Copying
import StackMachine.Proofs.Nesting

namespace StackMachine

/-- The cells of a frame. -/
def InFrame (base count : Word) (a : Int) : Prop := base.toInt ≤ a ∧ a < base.toInt + count.toInt

instance (base count : Word) (a : Int) : Decidable (InFrame base count a) :=
  inferInstanceAs (Decidable (_ ∧ _))

/-- The cells that a frame is saved to from here. -/
def Machine.SavesTo (m : Machine) (count : Word) (a : Int) : Prop := m.sp + 1 ≤ a ∧ a ≤ m.sp + count.toInt

/-- A frame with no cell in common with the cells it is saved to does not straddle the top of the stack. -/
theorem Machine.not_straddles_of_disjoint {m : Machine} {base count : Word}
    (h : ∀ a, InFrame base count a → ¬m.SavesTo count a) : ¬m.Straddles base count := by
  rintro ⟨hbelow, habove⟩
  exact h (m.sp + 1) ⟨by omega, by omega⟩ ⟨by omega, by omega⟩

namespace Session

variable {σ : Type} [Device σ] {s t : Session σ} {base count : Word}

/-- An `ALLOC` that succeeds leaves the values of the frame on the stack. -/
theorem Begins.saved (hb : s.Begins (.alloc base count)) (hok : s.tick.1 = .running)
    (hwords : (s.machine.memory.capacity : Int) ≤ Word.greatest)
    (hapart : s.machine.sp + 1 ≤ base.toInt ∨ base.toInt + count.toInt.toNat ≤ s.machine.sp + 1) :
    (∀ j < count.toInt.toNat, s.machine.memory.Contains (base.toInt + j)) ∧
      ∀ j < count.toInt.toNat,
        s.tick.2.Keeps (s.machine.sp + 1 + j) (s.machine.memory.get (base.toInt + j)) := by
  rw [hb.tick, perform_eq] at hok ⊢
  cases he : (Operation.alloc base count).execute s.image.labels s.machine.counted with
  | error f m =>
    simp only [he] at hok
    cases hok
  | ok d m =>
    obtain ⟨rfl, hcells, hroom, rfl⟩ := (Operation.execute_alloc_eq_ok (m := s.machine.counted) hwords).1 he
    refine ⟨hcells, fun j hj => ?_⟩
    simp only [retire_eq]
    constructor
    · show s.machine.sp + 1 + j ≤ s.machine.sp + count.toInt.toNat
      omega
    · exact Memory.get_copyUp_true hroom hapart hj

/-- A `DALLOC` takes the topmost values of the stack back to the frame. -/
theorem Begins.restored (hb : t.Begins (.dalloc base count))
    (hwords : (t.machine.memory.capacity : Int) ≤ Word.greatest)
    (hcells : ∀ j < count.toInt.toNat, t.machine.memory.Contains (base.toInt + j))
    (hvalues : ∀ j < count.toInt.toNat, t.machine.memory.Contains (t.machine.sp - j))
    (hapart : t.machine.sp - count.toInt.toNat + 1 ≤ base.toInt ∨
      base.toInt + count.toInt.toNat ≤ t.machine.sp - count.toInt.toNat + 1) :
    t.tick.1 = .running ∧ t.tick.2.machine.sp = t.machine.sp - count.toInt.toNat ∧
      ∀ j < count.toInt.toNat, t.tick.2.machine.memory.get (base.toInt + j) =
        t.machine.memory.get (t.machine.sp - count.toInt.toNat + 1 + j) := by
  have hexecute : (Operation.dalloc base count).execute t.image.labels t.machine.counted = .ok .nothing _ :=
    (Operation.execute_dalloc_eq_ok (m := t.machine.counted) hwords).2 ⟨rfl, hcells, hvalues, rfl⟩
  rw [hb.tick, perform_eq]
  simp only [hexecute, retire_eq]
  exact ⟨trivial, rfl, fun j hj => Memory.get_copyDown_true hcells hapart hj⟩

end Session

/-- A frame is restored. Let an `ALLOC` succeed, in whatever state, that saves a frame to other cells than its
own, and let the run go on in any way that spares the saved values: no pop reads them, and no `STR` or
`DALLOC` writes them. Then the `DALLOC` that is executed with these values on top of the stack succeeds and
takes them off the stack, and the frame holds what it held before the `ALLOC`. The memory is only to be one
whose cells all have words for their addresses. -/
theorem frame_restored {σ : Type} [Device σ] {settings : Settings} {program : Program}
    (hmemory : (settings.memory : Int) ≤ Word.greatest) {s t : Session σ} {base count : Word}
    (hcount : 0 ≤ count.toInt) (hs : s.Valid settings program) (halloc : s.Begins (.alloc base count))
    (hok : s.tick.1 = .running)
    (hdisjoint : ∀ a, InFrame base count a → ¬s.machine.SavesTo count a)
    (hstretch : s.tick.2.Stretch (fun u => ∀ a, s.machine.SavesTo count a → u.Spares a) t)
    (hdalloc : t.Begins (.dalloc base count)) (hsp : t.machine.sp = s.machine.sp + count.toInt) :
    t.tick.1 = .running ∧ t.tick.2.machine.sp = s.machine.sp ∧
      ∀ a, InFrame base count a → t.tick.2.machine.memory.get a = s.machine.memory.get a := by
  have hcapacity := hs.bounded.capacity
  have hlow := hs.bounded.sp_low
  have hapart : s.machine.sp + 1 ≤ base.toInt ∨ base.toInt + count.toInt.toNat ≤ s.machine.sp + 1 := by
    have hstraddles := Machine.not_straddles_of_disjoint hdisjoint
    unfold Machine.Straddles at hstraddles
    omega
  obtain ⟨hcells, hsaved⟩ := halloc.saved hok (by omega) hapart
  have htick := (Session.tick_ticks s).valid hs
  -- each saved value is still there
  have hkept : ∀ j < count.toInt.toNat,
      t.Keeps (s.machine.sp + 1 + j) (s.machine.memory.get (base.toInt + j)) := by
    intro j hj
    have hspares : s.tick.2.Stretch (Session.Spares (s.machine.sp + 1 + j)) t :=
      hstretch.mono fun u hu => hu _ ⟨by omega, by omega⟩
    exact (hspares.keeps htick (hsaved j hj)).2
  have hvalid : t.Valid settings program := hstretch.valid htick
  have hcapacity' : t.machine.memory.capacity = s.machine.memory.capacity := by
    rw [hcapacity, hvalid.bounded.capacity]
  have hhigh := hvalid.bounded.sp_lt
  have hcells' : ∀ j < count.toInt.toNat, t.machine.memory.Contains (base.toInt + j) := by
    intro j hj
    have := hcells j hj
    rwa [Memory.Contains, hcapacity']
  have hvalues : ∀ j < count.toInt.toNat, t.machine.memory.Contains (t.machine.sp - j) :=
    fun j hj => ⟨by omega, by omega⟩
  obtain ⟨hrunning, htop, hrestored⟩ := hdalloc.restored (by omega) hcells' hvalues (by omega)
  refine ⟨hrunning, by omega, ?_⟩
  rintro a ⟨ha, ha'⟩
  obtain ⟨j, rfl⟩ : ∃ j : Nat, a = base.toInt + j := ⟨(a - base.toInt).toNat, by omega⟩
  have hplace : t.machine.sp - count.toInt.toNat + 1 + (j : Int) = s.machine.sp + 1 + j := by omega
  rw [hrestored j (by omega), hplace]
  exact (hkept j (by omega)).value

/-- Puts 7 and 8 into a frame, saves it and calls `F`, which overwrites both and has a frame of its own. -/
def framed : Program where
  instructions := [⟨"", "LDC", "7", ""⟩, ⟨"", "LDC", "8", ""⟩, ⟨"", "ALLOC", "0", "2"⟩, ⟨"", "CALL", "F", ""⟩,
    ⟨"", "DALLOC", "0", "2"⟩, ⟨"", "HLT", "", ""⟩,
    ⟨"F", "NULL", "", ""⟩, ⟨"", "LDC", "0", ""⟩, ⟨"", "STR", "0", ""⟩, ⟨"", "ALLOC", "0", "1"⟩,
    ⟨"", "LDC", "1", ""⟩, ⟨"", "STR", "1", ""⟩, ⟨"", "DALLOC", "0", "1"⟩, ⟨"", "RETURN", "", ""⟩]

theorem frame_restored_framed :
    let s := (Session.create { memory := 8 } framed ({} : Scripted)).tick.2.tick.2.tick.2
    let t := (s.tick.2.run 9).2
    s.Begins (.alloc 0 2) ∧ s.tick.2.Stretch (fun u => ∀ a, s.machine.SavesTo 2 a → u.Spares a) t ∧
      t.Begins (.dalloc 0 2) ∧ t.machine.memory.get 0 = 0 ∧ t.machine.memory.get 1 = 1 ∧
      t.tick.1 = .running ∧ t.tick.2.machine.sp = 1 ∧
      t.tick.2.machine.memory.get 0 = 7 ∧ t.tick.2.machine.memory.get 1 = 8 := by
  intro s t
  have hs : s.Reachable { memory := 8 } framed := .tick (.tick (.tick (.create _)))
  have hsp : s.machine.sp = 1 := by decide +kernel
  have hlimit : s.settings.stepLimit = none := by decide +kernel
  have halloc : s.Begins (.alloc 0 2) :=
    ⟨by decide +kernel, by decide +kernel, by decide +kernel, by simp, by simp [hlimit]⟩
  have hdisjoint : ∀ a, InFrame 0 2 a → ¬s.machine.SavesTo 2 a := by
    rintro a ⟨-, ha⟩ ⟨ha', -⟩
    have htwo : (0 : Word).toInt + (2 : Word).toInt = 2 := by decide
    omega
  -- the call with its frame and its return
  have hsteps : ∀ k < 9,
      (∀ j < 2, ∀ op ∈ (s.tick.2.run k).2.inHand?,
        op.Spares ((2 : Int) + (j : Nat)) (s.tick.2.run k).2.machine.sp) ∧
        (s.tick.2.run (k + 1)).1 = .running := by
    decide +kernel
  have hstretch : s.tick.2.Stretch (fun u => ∀ a, s.machine.SavesTo 2 a → u.Spares a) t := by
    refine Session.stretch_run fun k hk => ⟨?_, (hsteps k hk).2⟩
    rintro a ⟨ha, ha'⟩
    have htwo : (2 : Word).toInt = 2 := by decide
    obtain ⟨j, rfl⟩ : ∃ j : Nat, a = 2 + j := ⟨(a - 2).toNat, by omega⟩
    exact Session.spares_of_inHand ((hsteps k hk).1 j (by omega))
  have hlimit' : t.settings.stepLimit = none := by decide +kernel
  have hdalloc : t.Begins (.dalloc 0 2) :=
    ⟨by decide +kernel, by decide +kernel, by decide +kernel, by simp, by simp [hlimit']⟩
  obtain ⟨hrunning, hsp', hframe⟩ := frame_restored (by decide) (by decide) hs.valid halloc
    (by decide +kernel) hdisjoint hstretch hdalloc (by decide +kernel)
  exact ⟨halloc, hstretch, hdalloc, by decide +kernel, by decide +kernel, hrunning, hsp'.trans hsp,
    (hframe 0 (by decide)).trans (by decide +kernel), (hframe 1 (by decide)).trans (by decide +kernel)⟩

end StackMachine
