import Mathlib.Algebra.BigOperators.Group.Finset.Piecewise
import Mathlib.Data.FinEnum
import Tuga.Proofs.Machine.Cut

namespace Tuga

namespace Profile

def recordAll (p : Profile) (ops : List Opcode) : Profile := ops.foldl record p

-- A profile shows how often each operation was executed. It lists those that were, each once, the
-- most frequent first and then by their numbers.
structure Shows (p : Profile) (times : Opcode → Nat) : Prop where
  count : ∀ op, p.count op = times op
  total : p.total = ∑ byte : UInt8, times ⟨byte⟩
  mem_hottest : ∀ op n, (op, n) ∈ p.hottest ↔ n = times op ∧ 0 < n
  nodup : (p.hottest.map Prod.fst).Nodup
  order : p.hottest.Pairwise fun a b => b.2 < a.2 ∨ (a.2 = b.2 ∧ a.1.byte < b.1.byte)

section Counts

variable {p : Profile}

theorem recordAll_append (p : Profile) (ops more : List Opcode) :
    p.recordAll (ops ++ more) = (p.recordAll ops).recordAll more :=
  List.foldl_append

theorem count_eq (p : Profile) (op : Opcode) : p.count op = (p.counts[op.byte.toNat]?).getD 0 :=
  Array.getD_eq_getD_getElem?

theorem count_record (hp : p.counts.size = 256) (done op : Opcode) :
    (p.record done).count op = p.count op + if done = op then 1 else 0 := by
  have hlt : op.byte.toNat < p.counts.size := hp ▸ op.byte.toNat_lt
  rw [count_eq, count_eq, record, Array.getElem?_modify]
  by_cases hop : done = op
  · rw [hop, if_pos rfl, if_pos rfl, Array.getElem?_eq_getElem hlt]
    rfl
  · have hbyte : done.byte.toNat ≠ op.byte.toNat := by
      intro hbyte
      exact hop (congrArg Opcode.mk (UInt8.toNat_inj.mp hbyte))
    rw [if_neg hbyte, if_neg hop, Nat.add_zero]

theorem size_record (p : Profile) (op : Opcode) : (p.record op).counts.size = p.counts.size :=
  Array.size_modify

theorem count_recordAll (hp : p.counts.size = 256) (ops : List Opcode) (op : Opcode) :
    (p.recordAll ops).count op = p.count op + ops.count op := by
  induction ops generalizing p with
  | nil => rfl
  | cons done ops ih =>
      change ((p.record done).recordAll ops).count op = _
      rw [ih ((size_record p done).trans hp), count_record hp, List.count_cons]
      simp only [beq_iff_eq]
      omega

theorem total_recordAll (p : Profile) (ops : List Opcode) :
    (p.recordAll ops).total = p.total + ops.length := by
  induction ops generalizing p with
  | nil => rfl
  | cons done ops ih =>
      change ((p.record done).recordAll ops).total = _
      rw [ih, List.length_cons]
      change p.total + 1 + ops.length = _
      omega

theorem count_new (op : Opcode) : ({} : Profile).count op = 0 := by
  have hlt : op.byte.toNat < (Array.replicate 256 0).size := by
    rw [Array.size_replicate]
    exact op.byte.toNat_lt
  rw [count_eq, Array.getElem?_eq_getElem hlt, Array.getElem_replicate]
  rfl

theorem sum_count (ops : List Opcode) : ∑ byte : UInt8, ops.count ⟨byte⟩ = ops.length := by
  have hcount : ∀ byte : UInt8, ops.count ⟨byte⟩ = (ops.map Opcode.byte).count byte := by
    intro byte
    have hinjective : Function.Injective Opcode.byte := by
      rintro ⟨a⟩ ⟨b⟩ rfl
      rfl
    exact (List.count_map_of_injective ops Opcode.byte hinjective ⟨byte⟩).symm
  simp only [hcount, ← Multiset.coe_count]
  rw [Multiset.sum_count_eq_card fun byte _ => Finset.mem_univ byte, Multiset.coe_card,
    List.length_map]

end Counts

section Hottest

theorem mem_executed (p : Profile) (op : Opcode) (n : Nat) :
    (op, n) ∈ p.executed ↔ n = p.count op ∧ 0 < n := by
  simp only [executed, List.mem_filterMap, List.mem_map, List.mem_range]
  constructor
  · rintro ⟨_, ⟨i, -, rfl⟩, h⟩
    split at h
    · cases h
      exact ⟨rfl, ‹_›⟩
    · cases h
  · rintro ⟨rfl, hpos⟩
    refine ⟨op, ⟨op.byte.toNat, op.byte.toNat_lt, ?_⟩, if_pos hpos⟩
    rw [UInt8.ofNat_toNat]

theorem pairwise_executed (p : Profile) :
    p.executed.Pairwise fun a b => a.1.byte < b.1.byte := by
  rw [executed, List.pairwise_filterMap, List.pairwise_map]
  refine List.pairwise_lt_range.imp_of_mem ?_
  intro i j hi hj hlt a ha b hb
  split at ha
  · split at hb
    · cases ha
      cases hb
      rw [List.mem_range] at hi hj
      rwa [UInt8.lt_iff_toNat_lt, UInt8.toNat_ofNat_of_lt' hi, UInt8.toNat_ofNat_of_lt' hj]
    · cases hb
  · cases ha

theorem hottest_perm (p : Profile) : p.hottest.Perm p.executed := List.mergeSort_perm _ _

theorem pairwise_hottest (p : Profile) : p.hottest.Pairwise fun a b => b.2 ≤ a.2 := by
  have hsorted : p.hottest.Pairwise fun a b => decide (b.2 ≤ a.2) = true :=
    List.pairwise_mergeSort (by simp only [decide_eq_true_eq]; omega) (by simp; omega) _
  simpa only [decide_eq_true_eq] using hsorted

-- Sorting is stable: entries with one count stay in the order in which they were collected.
theorem filter_hottest (p : Profile) (n : Nat) :
    p.hottest.filter (·.2 = n) = p.executed.filter (·.2 = n) := by
  have hequal : (p.executed.filter (·.2 = n)).Pairwise
      fun a b => decide (b.2 ≤ a.2) = true := by
    refine List.pairwise_of_forall_mem_list fun a ha b hb => ?_
    simp only [List.mem_filter, decide_eq_true_eq] at ha hb
    simp [ha.2, hb.2]
  have hsublist : (p.executed.filter (·.2 = n)).Sublist p.hottest :=
    List.sublist_mergeSort (by simp only [decide_eq_true_eq]; omega) (by simp; omega) hequal
      List.filter_sublist
  have hfilter := hsublist.filter (fun entry => decide (entry.2 = n))
  rw [List.filter_filter] at hfilter
  simp only [Bool.and_self] at hfilter
  exact (hfilter.eq_of_length ((p.hottest_perm.filter _).length_eq).symm).symm

theorem order_hottest (p : Profile) :
    p.hottest.Pairwise fun a b => b.2 < a.2 ∨ (a.2 = b.2 ∧ a.1.byte < b.1.byte) := by
  rw [List.pairwise_iff_forall_sublist]
  intro a b hab
  have hle : b.2 ≤ a.2 := List.pairwise_iff_forall_sublist.mp p.pairwise_hottest hab
  by_cases heq : a.2 = b.2
  · refine .inr ⟨heq, ?_⟩
    have hfilter := hab.filter (fun entry => decide (entry.2 = a.2))
    rw [filter_hottest] at hfilter
    have hboth : [a, b].filter (fun entry => decide (entry.2 = a.2)) = [a, b] := by
      simp [heq]
    rw [hboth] at hfilter
    exact List.pairwise_iff_forall_sublist.mp p.pairwise_executed
      (hfilter.trans List.filter_sublist)
  · exact .inl (by omega)

end Hottest

-- A new profile shows what is recorded in it.
theorem shows_recordAll (ops : List Opcode) :
    (({} : Profile).recordAll ops).Shows (ops.count ·) := by
  have hcount : ∀ op, (({} : Profile).recordAll ops).count op = ops.count op := by
    intro op
    rw [count_recordAll Array.size_replicate, count_new, Nat.zero_add]
  refine ⟨hcount, ?_, fun op n => ?_, ?_, order_hottest _⟩
  · rw [total_recordAll, sum_count]
    exact Nat.zero_add _
  · rw [(hottest_perm _).mem_iff, mem_executed, hcount]
  · rw [((hottest_perm _).map Prod.fst).nodup_iff]
    refine List.pairwise_map.mpr ((pairwise_executed _).imp fun hlt heq => ?_)
    rw [heq] at hlt
    exact UInt8.lt_irrefl _ hlt

end Profile

namespace Machine

def profiled (m : Machine) (profile : Option Profile) : Machine := { m with profile }

-- What a run dispatches: as many instructions from the next one on as it counts.
def dispatched (m : Machine) : List Opcode :=
  ((m.program.code.drop m.pc).take (m.run.machine.steps - m.steps)).map (·.op)

-- What several runs dispatch, one after another.
def dispatchedIn (m : Machine) (runs : Nat) : List Opcode :=
  (List.range runs).flatMap fun j => (m.rerun j).dispatched

-- Several machines that record into one profile.
structure Bench (n : Nat) where
  machines : Fin n → Machine
  profile : Profile := {}

-- Lets one of the machines run.
def Bench.run {n : Nat} (bench : Bench n) (k : Fin n) : Bench n :=
  let m := ((bench.machines k).profiled (some bench.profile)).run.machine
  { machines := Function.update bench.machines k m
    profile := m.profile.getD bench.profile }

variable {m next stopped : Machine} {i : Instruction} {printed : Text} {error : RunError}
  {o : Outcome}

section Dispatched

theorem length_dispatched (m : Machine) :
    m.dispatched.length = m.run.machine.steps - m.steps := by
  have hle := (execution_run m).steps_le_length
  rw [dispatched, List.length_map, List.length_take, List.length_drop]
  omega

theorem dispatched_eq_nil (h : m.run.machine.steps = m.steps) : m.dispatched = [] := by
  rw [← List.length_eq_zero_iff, length_dispatched, h, Nat.sub_self]

theorem At.dispatched_eq (here : m.At i) {n : Nat} (h : m.run.machine.steps = m.steps + (n + 1)) :
    m.dispatched = i.op :: ((m.program.code.drop (m.pc + 1)).take n).map (·.op) := by
  obtain ⟨hlt, hi⟩ := List.getElem?_eq_some_iff.mp here.instruction
  rw [dispatched, h, Nat.add_sub_cancel_left, List.drop_eq_getElem_cons hlt, hi,
    List.take_succ_cons, List.map_cons]

theorem Step.dispatched_eq (h : m.Step printed next) (here : m.At i) :
    m.dispatched = i.op :: next.dispatched := by
  have hrun : m.run.machine = next.run.machine := by
    rw [h.run_eq]
    rfl
  have hsteps := h.steps_eq
  have hle := (execution_run next).steps_le
  have hcount : m.run.machine.steps =
      m.steps + ((next.run.machine.steps - next.steps) + 1) := by
    rw [hrun]
    omega
  rw [here.dispatched_eq hcount, dispatched, h.program_eq]
  rcases h.goes_on_or_halts with ⟨-, hpc⟩ | ⟨hhalted, -⟩
  · rw [hpc]
  · rw [run_of_halted hhalted, Nat.sub_self, List.take_zero, List.take_zero]

theorem Stops.dispatched_eq (h : m.Stops error stopped) (here : m.At i) :
    m.dispatched = [i.op] := by
  have hcount : m.run.machine.steps = m.steps + (0 + 1) := by
    rw [h.run_eq]
    exact h.steps_eq
  rw [here.dispatched_eq hcount, List.take_zero, List.map_nil]

end Dispatched

section Profiled

theorem At.profiled (here : m.At i) (profile : Option Profile) : (m.profiled profile).At i :=
  ⟨here.running, here.instruction⟩

-- A machine with another profile makes the same step and records its instruction there.
theorem Step.profiled (h : m.Step printed next) :
    ∃ i, m.At i ∧ ∀ profile,
      (m.profiled profile).Step printed (next.profiled (profile.map (·.record i.op))) := by
  cases h with
  | next here hi => exact ⟨_, here, fun profile => .next (here.profiled profile) hi⟩
  | print here hi room => exact ⟨_, here, fun profile => .print (here.profiled profile) hi room⟩
  | halt here hi => exact ⟨_, here, fun profile => .halt (here.profiled profile) hi⟩

theorem Stops.profiled (h : m.Stops error stopped) :
    ∃ i, m.At i ∧ ∀ profile,
      (m.profiled profile).Stops error (stopped.profiled (profile.map (·.record i.op))) := by
  cases h with
  | fault here hi => exact ⟨_, here, fun profile => .fault (here.profiled profile) hi⟩
  | full here hi room => exact ⟨_, here, fun profile => .full (here.profiled profile) hi room⟩

theorem Execution.profiled (h : Execution m o) (profile : Option Profile) :
    Execution (m.profiled profile)
      { o with machine := o.machine.profiled (profile.map (·.recordAll m.dispatched)) } := by
  induction h generalizing profile with
  | @halted m halted =>
      have hnone : m.dispatched = [] := dispatched_eq_nil (by rw [run_of_halted halted])
      simp only [hnone, Profile.recordAll, List.foldl_nil, Option.map_id']
      exact .halted halted
  | @finished m running last =>
      have hnone : m.dispatched = [] := dispatched_eq_nil (by rw [run_of_finished running last])
      simp only [hnone, Profile.recordAll, List.foldl_nil, Option.map_id']
      exact .finished running last
  | @step m next printed o first _ ih =>
      obtain ⟨i, here, hstep⟩ := first.profiled
      have hrest := ih (profile.map (·.record i.op))
      rw [Option.map_map] at hrest
      rw [first.dispatched_eq here]
      exact .step (hstep profile) hrest
  | @stopped m stopped error stops =>
      obtain ⟨i, here, hstops⟩ := stops.profiled
      rw [stops.dispatched_eq here]
      exact .stopped (hstops profile)

theorem run_profiled (m : Machine) (profile : Option Profile) :
    (m.profiled profile).run =
      { m.run with
        machine := m.run.machine.profiled (profile.map (·.recordAll m.dispatched)) } :=
  ((execution_run m).profiled profile).eq_run.symm

theorem dispatched_profiled (m : Machine) (profile : Option Profile) :
    (m.profiled profile).dispatched = m.dispatched := by
  rw [dispatched, run_profiled]
  rfl

theorem exists_rerun_profiled (m : Machine) (profile : Option Profile) (n : Nat) :
    ∃ last, (m.profiled profile).rerun n = (m.rerun n).profiled last := by
  induction n with
  | zero => exact ⟨profile, rfl⟩
  | succ n ih =>
      obtain ⟨last, ih⟩ := ih
      rw [rerun, ih, run_profiled]
      exact ⟨_, rfl⟩

theorem dispatchedIn_profiled (m : Machine) (profile : Option Profile) (runs : Nat) :
    (m.profiled profile).dispatchedIn runs = m.dispatchedIn runs := by
  have hrun : ∀ j, ((m.profiled profile).rerun j).dispatched = (m.rerun j).dispatched := by
    intro j
    obtain ⟨last, hlast⟩ := m.exists_rerun_profiled profile j
    rw [hlast, dispatched_profiled]
  simp only [dispatchedIn, hrun]

end Profiled

section Sharing

theorem dispatchedIn_succ (m : Machine) (runs : Nat) :
    m.dispatchedIn (runs + 1) = m.dispatched ++ m.run.machine.dispatchedIn runs := by
  simp only [dispatchedIn, List.range_succ_eq_map, List.flatMap_cons, List.flatMap_map,
    Nat.succ_eq_add_one, rerun_succ]
  rfl

theorem length_dispatchedIn (m : Machine) (runs : Nat) :
    m.steps + (m.dispatchedIn runs).length = (m.rerun runs).steps := by
  induction runs generalizing m with
  | zero => rfl
  | succ runs ih =>
      have hle := (execution_run m).steps_le
      have hrest := ih m.run.machine
      rw [rerun_succ] at hrest
      rw [dispatchedIn_succ, List.length_append, length_dispatched]
      omega

variable {n : Nat}

namespace Bench

theorem profile_run_eq (bench : Bench n) (k : Fin n) :
    (bench.run k).profile = bench.profile.recordAll (bench.machines k).dispatched := by
  rw [run, run_profiled]
  rfl

theorem exists_machines_run_self (bench : Bench n) (k : Fin n) :
    ∃ profile, (bench.run k).machines k = (bench.machines k).run.machine.profiled profile := by
  rw [run, run_profiled]
  exact ⟨_, Function.update_self ..⟩

theorem machines_run_of_ne (bench : Bench n) {k other : Fin n} (h : other ≠ k) :
    (bench.run k).machines other = bench.machines other :=
  Function.update_of_ne h ..

theorem dispatchedIn_cons (bench : Bench n) (k other : Fin n) (turns : List (Fin n)) :
    (bench.machines other).dispatchedIn ((k :: turns).count other) =
      (if other = k then (bench.machines k).dispatched else []) ++
        ((bench.run k).machines other).dispatchedIn (turns.count other) := by
  by_cases h : other = k
  · subst h
    obtain ⟨profile, hself⟩ := bench.exists_machines_run_self other
    rw [if_pos rfl, List.count_cons_self, dispatchedIn_succ, hself, dispatchedIn_profiled]
  · rw [if_neg h, List.count_cons_of_ne (Ne.symm h), bench.machines_run_of_ne h, List.nil_append]

-- Each machine comes as far as it would alone.
theorem exists_machines_eq (bench : Bench n) (turns : List (Fin n)) (k : Fin n) :
    ∃ profile, (turns.foldl run bench).machines k =
      ((bench.machines k).rerun (turns.count k)).profiled profile := by
  induction turns generalizing bench with
  | nil => exact ⟨(bench.machines k).profile, rfl⟩
  | cons turn turns ih =>
      obtain ⟨profile, hlast⟩ := ih (bench.run turn)
      rw [List.foldl_cons, hlast]
      by_cases h : k = turn
      · subst h
        obtain ⟨first, hself⟩ := bench.exists_machines_run_self k
        obtain ⟨rest, hrest⟩ := (bench.machines k).run.machine.exists_rerun_profiled first
          (turns.count k)
        rw [hself, hrest, rerun_succ, List.count_cons_self]
        exact ⟨profile, rfl⟩
      · rw [bench.machines_run_of_ne h, List.count_cons_of_ne (Ne.symm h)]
        exact ⟨profile, rfl⟩

-- Whichever machine runs when, the profile records what each of them dispatches.
theorem exists_log (bench : Bench n) (turns : List (Fin n)) :
    ∃ log, (turns.foldl run bench).profile = bench.profile.recordAll log ∧
      ∀ kind, log.countP kind =
        ∑ k, ((bench.machines k).dispatchedIn (turns.count k)).countP kind := by
  induction turns generalizing bench with
  | nil => exact ⟨[], rfl, fun kind => (Finset.sum_eq_zero fun k _ => rfl).symm⟩
  | cons k turns ih =>
      obtain ⟨log, hprofile, hlog⟩ := ih (bench.run k)
      refine ⟨(bench.machines k).dispatched ++ log, ?_, fun kind => ?_⟩
      · rw [List.foldl_cons, hprofile, profile_run_eq, Profile.recordAll_append]
      · have hfirst :
            ∑ other, (if other = k then (bench.machines k).dispatched else []).countP kind =
              (bench.machines k).dispatched.countP kind := by
          simp only [apply_ite (List.countP kind), List.countP_nil, Finset.sum_ite_eq',
            Finset.mem_univ, if_pos]
        simp only [dispatchedIn_cons, List.countP_append, Finset.sum_add_distrib]
        rw [hfirst, hlog]

theorem shows_profile (machines : Fin n → Machine) (turns : List (Fin n)) :
    (turns.foldl run { machines }).profile.Shows
      fun op => ∑ k, ((machines k).dispatchedIn (turns.count k)).count op := by
  obtain ⟨log, hprofile, hlog⟩ := exists_log { machines } turns
  have hcount : ∀ op, log.count op =
      ∑ k, ((machines k).dispatchedIn (turns.count k)).count op := fun op => hlog (· == op)
  rw [hprofile]
  simpa only [hcount] using Profile.shows_recordAll log

theorem total_profile (machines : Fin n → Machine) (turns : List (Fin n)) :
    (turns.foldl run { machines }).profile.total =
      ∑ k, (((machines k).rerun (turns.count k)).steps - (machines k).steps) := by
  obtain ⟨log, hprofile, hlog⟩ := exists_log { machines } turns
  have hlength : ∀ k, ((machines k).dispatchedIn (turns.count k)).length =
      ((machines k).rerun (turns.count k)).steps - (machines k).steps := by
    intro k
    have hk := length_dispatchedIn (machines k) (turns.count k)
    omega
  rw [hprofile, Profile.total_recordAll, ← List.countP_true, hlog]
  simp only [List.countP_true, hlength]
  exact Nat.zero_add _

end Bench

end Sharing

-- A new machine with a new profile: after its run the profile shows how often each operation stands
-- among the instructions that were dispatched, with that of a fault as the last one. Machines that
-- share a new profile: whichever runs when, it shows what all of them dispatched in all their runs.
theorem profile_run :
    (∀ (b : Bytecode) (sink : Sink),
      let run := Machine.run { load b with sink, profile := some {} }
      ∃ p, run.machine.profile = some p ∧
        p.Shows (fun op => (b.code.take run.machine.steps).countP (·.op = op)) ∧
        p.total = run.machine.steps ∧
        ∀ fault pc op, run.error = some (.fault fault pc op) →
          run.machine.steps = pc + 1 ∧ b.code[pc]?.map Instruction.op = some op) ∧
    ∀ (n : Nat) (machines : Fin n → Machine) (turns : List (Fin n)),
      let last := turns.foldl Bench.run { machines }
      (∀ k, ∃ profile,
        last.machines k = ((machines k).rerun (turns.count k)).profiled profile) ∧
      last.profile.Shows
        (fun op => ∑ k, ((machines k).dispatchedIn (turns.count k)).count op) ∧
      last.profile.total =
        ∑ k, (((machines k).rerun (turns.count k)).steps - (machines k).steps) := by
  refine ⟨fun b sink => ?_, fun n machines turns => ?_⟩
  · intro run
    let m : Machine := { load b with sink }
    have hrun : run = { m.run with
        machine := m.run.machine.profiled (some (({} : Profile).recordAll m.dispatched)) } :=
      run_profiled m (some {})
    have hsteps : run.machine.steps = m.run.machine.steps := by rw [hrun]; rfl
    have hcount : ∀ op, m.dispatched.count op =
        (b.code.take run.machine.steps).countP (·.op = op) := by
      intro op
      rw [hsteps, dispatched, List.count, List.countP_map]
      rfl
    refine ⟨({} : Profile).recordAll m.dispatched, by rw [hrun]; rfl, ?_, ?_, ?_⟩
    · simpa only [hcount] using Profile.shows_recordAll m.dispatched
    · rw [Profile.total_recordAll, length_dispatched, hsteps]
      exact (Nat.zero_add _).trans (Nat.sub_zero _)
    · intro fault pc op herror
      obtain ⟨-, hpc, hop, -⟩ := run_fault herror
      refine ⟨hpc.trans ?_, hop⟩
      exact congrArg (· + 1) (Nat.zero_add pc)
  · exact ⟨Bench.exists_machines_eq { machines } turns, Bench.shows_profile machines turns,
      Bench.total_profile machines turns⟩

end Machine

end Tuga
