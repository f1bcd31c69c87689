import MiniC.Proofs.Machine.Run

/-!
# Calls in the stack machine

A call puts the five organisational cells of the new frame and then the arguments on the stack. Entering the
function makes all of the stack a part of the memory; its `ssp` raises the floor to the end of the frame.
Leaving it with `retf` gives the caller its stack back, with the result on top.
-/

namespace MiniC.Machine

/-- The stack as a part of the memory. -/
def Config.lowered (c : Config) : Config :=
  { c with
    floor := c.floor + c.stack.length
    mem := fun a => if a ≤ c.floor then c.mem a else (c.stack.reverse[(a - c.floor - 1).toNat]?).getD .empty
    stack := [] }

/-- The organisational cells of a frame, topmost first. -/
def frameWords (c : Config) (link : Int) : List Word :=
  [.empty, .address c.ep, .address c.mp, .address link, .empty]

/-- The frame of a function that is entered with arguments on the stack. -/
def Config.entered (c : Config) (count k : Nat) : Config :=
  let mp := c.floor + c.stack.length - (count + 4)
  { c.lowered with mp, mem := Function.update c.lowered.mem (mp + 4) (.address k) }

/-- The floor at some cells of the frame; cells that come into the memory are empty. -/
def Config.raised (c : Config) (n : Int) : Config :=
  { c with floor := c.mp + n - 1, mem := fun a => if a ≤ c.floor then c.mem a else .empty }

section

variable {code ls : List Line} {k k1 : Nat} {c c1 : Config} {s : State} {l : Label}

theorem Config.Shows.lowered (h : c.Shows s) : c.lowered.Shows s := by
  have hsp := h.sp_eq
  have hfloor := h.floor_ge
  refine ⟨by simp only [Config.lowered]; omega, h.mp_eq, h.ep_eq, by simp [Config.lowered, hsp], ?_,
    by simp [Config.lowered]⟩
  intro a ha
  simp only [Config.lowered] at ha ⊢
  split
  next hle => exact h.mem_eq a hle
  next hgt =>
    have hlt : (a - c.floor - 1).toNat < c.stack.length := by omega
    rw [List.getElem?_reverse hlt, List.getElem?_eq_getElem (by omega), Option.getD_some,
      ← h.stack_eq _ _ (List.getElem?_eq_getElem (by omega))]
    congr 1; omega

theorem Reach.lowered (code : List Line) (k : Nat) (c : Config) : Reach code k c k c.lowered :=
  fun s hk hs => ⟨s, .refl, hk, hs.lowered⟩

theorem Reach.mst {level link : Int} (h : At code k (.instr (.mst level) :: ls))
    (hl : c.frame? level = some link) :
    Reach code k c (k + 1) { c with stack := frameWords c link ++ c.stack } := by
  refine .single h fun s hk hs => ?_
  have hmark := (((((hs.push .empty).push (.address link)).push (.address c.mp)).push (.address c.ep)).push
    .empty)
  refine ⟨{ (((((s.push .empty).push (.address link)).push (.address c.mp)).push (.address c.ep)).push .empty)
    with pc := s.pc + 1 }, ?_, by simp [hk], ?_⟩
  · simp [execute, mark?, hs.frame? hl, State.push, State.replace, hs.mp_eq, hs.ep_eq, Int.add_assoc]
  · exact ⟨hmark.floor_ge, hmark.mp_eq, hmark.ep_eq, hmark.sp_eq, hmark.mem_eq, hmark.stack_eq⟩

theorem Reach.cup {count : Nat} (h : At code k (.instr (.cup count l) :: ls)) (hl : target code l = some k1) :
    Reach code k c k1 (c.entered count k) := by
  refine .single h fun s hk hs => ?_
  have hlow := hs.lowered
  have hsp := hs.sp_eq
  have hfloor := hs.floor_ge
  have hcall : execute (target code) s (.cup count l) = some { s with
      mp := s.sp - (count + 4), pc := k1,
      store := Function.update s.store (s.sp - (count + 4) + 4) (.address s.pc) } := by
    simp only [execute, call?, jump?, hl, Option.map_some]
  refine ⟨_, hcall, rfl, ?_⟩
  refine ⟨hlow.floor_ge, by simp [Config.entered, hsp], hlow.ep_eq, hlow.sp_eq, ?_, by
    simp [Config.entered, Config.lowered]⟩
  intro a ha
  simp only [Config.entered, hsp, hk]
  by_cases hne : a = c.floor + c.stack.length - (count + 4) + 4
  · subst hne; simp
  · rw [Function.update_of_ne hne, Function.update_of_ne hne]
    exact hlow.mem_eq a ha

theorem Reach.ssp {n : Int} (h : At code k (.instr (.ssp n) :: ls)) (hs : c.stack = [])
    (hn : c.floor ≤ c.mp + n - 1) : Reach code k c (k + 1) (c.raised n) := by
  refine .single h fun s hk hshow => ⟨setTop s n, rfl, by simp [setTop, hk], ?_⟩
  have hsp := hshow.sp_eq
  have hmp := hshow.mp_eq
  have hfloor := hshow.floor_ge
  simp only [hs, List.length_nil] at hsp
  refine ⟨by simp only [Config.raised]; omega, hshow.mp_eq, hshow.ep_eq, by simp [setTop, Config.raised, hs, hmp],
    ?_, by simp [Config.raised, hs]⟩
  intro a ha
  simp only [Config.raised, setTop] at ha ⊢
  by_cases hle : a ≤ c.floor
  · rw [if_neg (by omega), if_pos hle, hshow.mem_eq a hle]
  · rw [if_pos ⟨by omega, by omega⟩, if_neg hle]

/-! ### The memory of a function that was entered -/

variable {args ws : List Word} {link : Int}

theorem Config.lowered_mem_low {a : Int} (ha : a ≤ c.floor) : c.lowered.mem a = c.mem a := by
  simp [Config.lowered, ha]

theorem Config.lowered_mem_high {j : Nat} {w : Word} (hw : c.stack.reverse[j]? = some w) :
    c.lowered.mem (c.floor + 1 + j) = w := by
  have hj : (c.floor + 1 + (j : Int) - c.floor - 1).toNat = j := by omega
  have hle : ¬ c.floor + 1 + (j : Int) ≤ c.floor := by omega
  simp only [Config.lowered, if_neg hle, hj, hw, Option.getD_some]

/-- The stack of a caller at the entry of a function, from below. -/
theorem reverse_callStack (hs : c.stack = args.reverse ++ frameWords c link ++ ws) :
    c.stack.reverse = ws.reverse ++ [.empty, .address link, .address c.mp, .address c.ep, .empty] ++ args := by
  simp [hs, frameWords]

section

variable (hs : c.stack = args.reverse ++ frameWords c link ++ ws)
include hs

theorem Config.entered_mp : (c.entered args.length k).mp = c.floor + ws.length + 1 := by
  simp only [Config.entered, hs, frameWords, List.length_append, List.length_reverse, List.length_cons,
    List.length_nil]
  push_cast; omega

theorem Config.entered_floor : (c.entered args.length k).floor = c.floor + ws.length + 5 + args.length := by
  simp only [Config.entered, Config.lowered, hs, frameWords, List.length_append, List.length_reverse,
    List.length_cons, List.length_nil]
  push_cast; omega

theorem Config.entered_mem {a : Int} (ha : a ≠ c.floor + ws.length + 5) :
    (c.entered args.length k).mem a = c.lowered.mem a := by
  have hmp := Config.entered_mp (k := k) hs
  simp only [Config.entered] at hmp ⊢
  rw [Function.update_of_ne]
  omega

theorem Config.entered_return : (c.entered args.length k).mem (c.floor + ws.length + 5) = .address k := by
  have hmp := Config.entered_mp (k := k) hs
  have he : c.floor + (ws.length : Int) + 5 = (c.entered args.length k).mp + 4 := by omega
  rw [he]
  simp [Config.entered]

theorem Config.entered_low {a : Int} (ha : a ≤ c.floor) : (c.entered args.length k).mem a = c.mem a := by
  rw [Config.entered_mem hs (by omega), Config.lowered_mem_low ha]

theorem Config.entered_stack {i : Nat} {w : Word} (hw : ws[i]? = some w) :
    (c.entered args.length k).mem (c.floor + ws.length - i) = w := by
  have hlt := (List.getElem?_eq_some_iff.1 hw).1
  rw [Config.entered_mem hs (by omega)]
  have hj : c.floor + (ws.length : Int) - i = c.floor + 1 + ((ws.length - 1 - i : Nat) : Int) := by omega
  rw [hj]
  refine Config.lowered_mem_high ?_
  rw [reverse_callStack hs, List.append_assoc, List.getElem?_append_left (by simp; omega),
    List.getElem?_reverse (by omega), ← hw]
  congr 1; omega

theorem Config.entered_words {i : Nat} {w : Word}
    (hw : ([.empty, .address link, .address c.mp, .address c.ep, .empty] ++ args)[i]? = some w) (hi : i ≠ 4) :
    (c.entered args.length k).mem (c.floor + ws.length + 1 + i) = w := by
  rw [Config.entered_mem hs (by omega)]
  have hj : c.floor + (ws.length : Int) + 1 + i = c.floor + 1 + ((ws.length + i : Nat) : Int) := by push_cast; omega
  rw [hj]
  refine Config.lowered_mem_high ?_
  rw [reverse_callStack hs, List.append_assoc, List.getElem?_append_right (by simp), ← hw]
  simp

theorem Config.entered_link : (c.entered args.length k).mem (c.floor + ws.length + 2) = .address link := by
  have := Config.entered_words (k := k) hs (i := 1) rfl (by decide)
  rwa [Int.add_assoc] at this

theorem Config.entered_caller : (c.entered args.length k).mem (c.floor + ws.length + 3) = .address c.mp := by
  have := Config.entered_words (k := k) hs (i := 2) rfl (by decide)
  rwa [Int.add_assoc] at this

theorem Config.entered_callerTop : (c.entered args.length k).mem (c.floor + ws.length + 4) = .address c.ep := by
  have := Config.entered_words (k := k) hs (i := 3) rfl (by decide)
  rwa [Int.add_assoc] at this

theorem Config.entered_arg {i : Nat} {w : Word} (hw : args[i]? = some w) :
    (c.entered args.length k).mem (c.floor + ws.length + 6 + i) = w := by
  have := Config.entered_words (k := k) hs (i := i + 5) (w := w) (by simpa using hw) (by omega)
  rw [← this]; congr 1; push_cast; omega

end

/-! ### Back in the caller -/

/-- The cells of the caller are in the memory of the function that is left. -/
structure Config.Below (c c1 : Config) : Prop where
  floor_ge : -1 ≤ c1.floor
  mp_eq : c.mp = c1.floor + c1.stack.length + 1
  mp_le : c.mp ≤ c.floor
  mem_eq : ∀ a, a ≤ c1.floor → c.mem a = c1.mem a
  stack_eq : ∀ (i : Nat) w, c1.stack[i]? = some w → c.mem (c.mp - 1 - i) = w

theorem Reach.retf {r : Nat} (h : At code k (.instr .retf :: ls)) (hb : c.Below c1) (hfloor : c.mp + 4 ≤ c.floor)
    (hmp : c.mem (c.mp + 2) = .address c1.mp) (hep : c.mem (c.mp + 3) = .address c1.ep)
    (hpc : c.mem (c.mp + 4) = .address r) : Reach code k c (r + 1) (c1.pushed (c.mem c.mp)) := by
  refine .single h fun s hk hs => ?_
  have hread : ∀ a, a ≤ c.floor → s.store a = c.mem a := hs.mem_eq
  have hb_mp := hb.mp_eq
  refine ⟨{ s with sp := s.mp - 0, mp := c1.mp, ep := c1.ep, pc := r + 1 }, ?_, rfl, ?_⟩
  · simp only [execute, return?, hs.mp_eq]
    rw [hread _ (by omega), hread _ (by omega), hread _ (by omega), hmp, hep, hpc]
    simp
  · refine ⟨hb.floor_ge, rfl, rfl, ?_, ?_, ?_⟩
    · simp only [hs.mp_eq, hb_mp, Config.pushed, List.length_cons]; push_cast; omega
    · intro a ha
      have ha' : a ≤ c1.floor := ha
      simp only [Config.pushed]
      rw [hread a (by have := hb.mp_le; omega), hb.mem_eq a ha']
    · intro i w hi
      simp only [hs.mp_eq, Int.sub_zero]
      rw [hread _ (by have := hb.mp_le; omega)]
      cases i with
      | zero => simpa [Config.pushed] using hi
      | succ i =>
        rw [← hb.stack_eq i w (by simpa [Config.pushed] using hi)]
        congr 1; push_cast; omega

end

end MiniC.Machine
