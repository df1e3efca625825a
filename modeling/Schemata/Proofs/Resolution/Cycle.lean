import Mathlib.Data.List.Chain
import Mathlib.Data.List.Perm.Subperm
import Schemata.Library.Resolution
import Schemata.Proofs.Declaration.Mention

/-! Names on the stack: each mentions the next, there are at most as many as names in the batch, and
a name needed while it is on the stack closes a cycle. -/

namespace Schemata.Batch

def Refers (batch : Batch) (grip : Grip) (a b : String) : Prop :=
  ∃ id d, Keyed.get? batch a = some (id, d) ∧ DeclarationOf.Mentions d grip b

/-- A chain of mentions back to its first name, the last of which is a supertype or a member. -/
structure Cycle (batch : Batch) (path : List String) : Prop where
  long : 2 ≤ path.length
  closed : path.head? = path.getLast?
  distinct : path.dropLast.Nodup
  known : path ⊆ Keyed.keys batch
  leads : path.IsChain fun a b => ∃ grip, batch.Refers grip a b
  firm : ∃ front a b, path = front ++ [a, b] ∧ batch.Refers .firm a b

variable {batch : Batch} {stack : List String} {name a : String} {grip : Grip}

/-- Names of a batch that are being built, each of which mentions the next one. -/
structure Trail (batch : Batch) (stack : List String) : Prop where
  distinct : stack.Nodup
  known : stack ⊆ Keyed.keys batch
  leads : stack.IsChain fun a b => ∃ grip, batch.Refers grip a b

structure Asked (batch : Batch) (stack : List String) (name : String) : Prop where
  leads : ∀ top ∈ stack.getLast?, ∃ grip, batch.Refers grip top name
  firm : name ∈ stack → ∀ top ∈ stack.getLast?, batch.Refers .firm top name

theorem trail_nil (batch : Batch) : batch.Trail [] :=
  ⟨List.nodup_nil, List.nil_subset _, .nil⟩

theorem asked_nil (batch : Batch) (name : String) : batch.Asked [] name := ⟨nofun, nofun⟩

theorem Refers.asked (refers : batch.Refers grip name a)
    (needed : a ∈ stack ++ [name] → grip = .firm) : batch.Asked (stack ++ [name]) a := by
  refine ⟨fun top last => ?_, fun there top last => ?_⟩
  all_goals
    rw [List.getLast?_concat] at last
    obtain rfl := Option.some.inj last
  · exact ⟨grip, refers⟩
  · exact needed there ▸ refers

theorem Trail.push (trail : batch.Trail stack) (asked : batch.Asked stack name)
    (apart : name ∉ stack) (known : name ∈ Keyed.keys batch) : batch.Trail (stack ++ [name]) := by
  refine ⟨?_, ?_, ?_⟩
  · refine List.nodup_append.mpr ⟨trail.distinct, List.pairwise_singleton _ name, ?_⟩
    intro a ha b hb same
    exact apart (List.mem_singleton.mp hb ▸ same ▸ ha)
  · refine List.append_subset.mpr ⟨trail.known, ?_⟩
    exact List.cons_subset.mpr ⟨known, List.nil_subset _⟩
  · refine List.isChain_append.mpr ⟨trail.leads, .singleton name, fun top last b hb => ?_⟩
    obtain rfl := Option.some.inj hb
    exact asked.leads top last

theorem Trail.length_le (trail : batch.Trail stack) : stack.length ≤ batch.length := by
  have bound := (List.subperm_of_subset trail.distinct trail.known).length_le
  rwa [Keyed.keys, List.length_map] at bound

theorem exists_since (there : name ∈ stack) :
    ∃ front rest, stack = front ++ name :: rest ∧ since name stack = name :: rest := by
  obtain ⟨front, rest, rfl, new⟩ := List.eq_append_cons_of_mem there
  refine ⟨front, rest, rfl, ?_⟩
  have before (a : String) (h : a ∈ front) : (a != name) = true := by
    rw [bne_iff_ne]
    rintro rfl
    exact new h
  rw [since, List.dropWhile_append_of_pos before, List.dropWhile_cons_of_neg (by simp)]

/-- A name needed while it is being built closes a cycle. -/
theorem Trail.cycle (trail : batch.Trail stack) (asked : batch.Asked stack name)
    (there : name ∈ stack) : batch.Cycle (since name stack ++ [name]) := by
  obtain ⟨front, rest, same, cut⟩ := exists_since there
  have within : name :: rest <:+ stack := ⟨front, same.symm⟩
  obtain ⟨inner, top, ends⟩ : ∃ inner top, name :: rest = inner ++ [top] :=
    ⟨_, _, (List.dropLast_append_getLast (List.cons_ne_nil name rest)).symm⟩
  have last : stack.getLast? = some top := by
    rw [same, ends, ← List.append_assoc, List.getLast?_concat]
  rw [cut]
  refine ⟨?_, ?_, ?_, ?_, ?_, inner, top, name, ?_, asked.firm there top last⟩
  · rw [List.length_append, List.length_cons]
    exact Nat.succ_le_succ (Nat.le_add_left 1 _)
  · rw [List.getLast?_concat]
    rfl
  · rw [List.dropLast_concat]
    exact within.sublist.nodup trail.distinct
  · refine List.append_subset.mpr ⟨fun a ha => trail.known (within.subset ha), ?_⟩
    exact List.cons_subset.mpr ⟨trail.known there, List.nil_subset _⟩
  · refine List.isChain_append.mpr ⟨trail.leads.suffix within, .singleton name, fun a ha b hb => ?_⟩
    rw [ends, List.getLast?_concat] at ha
    obtain rfl := Option.some.inj ha
    obtain rfl := Option.some.inj hb
    exact asked.leads _ last
  · rw [ends, List.append_assoc]
    rfl

end Schemata.Batch
