import Schemata.Text.Numeral

/-!
Sets of characters. A set is the ascending list of the numbers at which membership changes, so that
all operations on two sets are one merge of two lists; `hasNumber_combine` says that the merge is
the operation on membership.
-/

namespace Schemata.Text

/-- A set of characters by number: outside before the first change, inside from it to the second,
and so on. -/
structure CharSet where
  changes : List Nat
deriving Inhabited

namespace CharSet

instance : DecidableEq CharSet := fun a b =>
  withPtrEqDecEq a b fun _ =>
    if h : a.changes = b.changes then isTrue (by cases a; cases b; simp_all)
    else isFalse fun e => h (e ▸ rfl)

def hasFrom : Bool → List Nat → Nat → Bool
  | inside, [], _ => inside
  | inside, c :: rest, n => if n < c then inside else hasFrom (!inside) rest n

def hasNumber (s : CharSet) (n : Nat) : Bool := hasFrom false s.changes n

def has (s : CharSet) (c : Char) : Bool := s.hasNumber c.toNat

def empty : CharSet := ⟨[]⟩

def isEmpty (s : CharSet) : Bool := s.changes.isEmpty

def between (lo hi : Nat) : CharSet := if lo ≤ hi then ⟨[lo, hi + 1]⟩ else empty

def single (c : Char) : CharSet := between c.toNat c.toNat

def all : CharSet := ⟨[0, 0xD800, 0xE000, 0x110000]⟩

def changeAt (n : Nat) (before after : Bool) (rest : List Nat) : List Nat :=
  if before = after then rest else n :: rest

/-- The changes of an operation on two sets, given whether the place before the next changes is
inside either. -/
def merge (op : Bool → Bool → Bool) : Bool → Bool → List Nat → List Nat → List Nat
  | _, _, [], [] => []
  | p, q, a :: as, [] => changeAt a (op p q) (op (!p) q) (merge op (!p) q as [])
  | p, q, [], b :: bs => changeAt b (op p q) (op p (!q)) (merge op p (!q) [] bs)
  | p, q, a :: as, b :: bs =>
    if a < b then changeAt a (op p q) (op (!p) q) (merge op (!p) q as (b :: bs))
    else if b < a then changeAt b (op p q) (op p (!q)) (merge op p (!q) (a :: as) bs)
    else changeAt a (op p q) (op (!p) (!q)) (merge op (!p) (!q) as bs)
termination_by _ _ as bs => as.length + bs.length

def combine (op : Bool → Bool → Bool) (s t : CharSet) : CharSet :=
  ⟨merge op false false s.changes t.changes⟩

def union : CharSet → CharSet → CharSet := combine or

def inter : CharSet → CharSet → CharSet := combine and

def diff : CharSet → CharSet → CharSet := combine fun a b => a && !b

def symmDiff : CharSet → CharSet → CharSet := combine xor

def compl (s : CharSet) : CharSet := all.diff s

instance : Union CharSet := ⟨union⟩

instance : Inter CharSet := ⟨inter⟩

instance : Sub CharSet := ⟨diff⟩

def range (lo hi : Nat) : CharSet := between lo hi ∩ all

def runsOf : List Nat → List (Nat × Nat)
  | lo :: next :: rest => (lo, next - 1) :: runsOf rest
  | _ => []

def runs (s : CharSet) : List (Nat × Nat) := runsOf s.changes

def single? (s : CharSet) : Option Nat :=
  match s.runs with
  | [(lo, hi)] => if lo = hi then some lo else none
  | _ => none

def isBelow (s : CharSet) (bound : Nat) : Bool := s.changes.all (· ≤ bound)

def changesOf : List Nat → List Nat
  | [] => []
  | n :: rest =>
    match changesOf rest with
    | [] => [n, n + 1]
    | next :: more => if next = n + 1 then n :: more else n :: (n + 1) :: next :: more

def ofNumbers (numbers : List Nat) : CharSet := ⟨changesOf numbers.mergeSort⟩

/-- Numbers written in hexadecimal digits, a hyphen between the ends of a run and a blank after
each run; all ascending. The arguments before the text are the first end of a run, when it is
passed, and the number so far. -/
def decode : Option Nat → Nat → List Char → List Nat
  | lo, n, [] => [lo.getD n, n + 1]
  | lo, n, c :: rest =>
    if c = '-' then decode (some n) 0 rest
    else if c = ' ' then lo.getD n :: (n + 1) :: decode none 0 rest
    else decode lo (n * 16 + (hexValue? c).getD 0) rest

def ofPieces (pieces : List String) : CharSet :=
  ⟨pieces.flatMap fun piece => decode none 0 piece.toList⟩

/-! Laws. -/

theorem hasFrom_of_lt {n : Nat} :
    ∀ {p : Bool} {as : List Nat}, (∀ a ∈ as, n < a) → hasFrom p as n = p
  | _, [], _ => rfl
  | _, _ :: _, h => if_pos (h _ List.mem_cons_self)

abbrev Ascending (as : List Nat) : Prop := as.Pairwise (· < ·)

theorem Ascending.lt_of_lt {a n : Nat} {as : List Nat} (h : Ascending (a :: as)) (hn : n < a) :
    ∀ b ∈ a :: as, n < b := by
  intro b hb
  rcases List.mem_cons.1 hb with rfl | hb
  · exact hn
  · exact Nat.lt_trans hn (List.rel_of_pairwise_cons h hb)

theorem mem_changeAt {n m : Nat} {before after : Bool} {rest : List Nat}
    (h : m ∈ changeAt n before after rest) : m = n ∨ m ∈ rest := by
  unfold changeAt at h
  split at h
  · exact Or.inr h
  · exact List.mem_cons.1 h

theorem mem_merge {op : Bool → Bool → Bool} {p q : Bool} {as bs : List Nat} {n : Nat}
    (h : n ∈ merge op p q as bs) : n ∈ as ∨ n ∈ bs := by
  fun_induction merge op p q as bs with
  | case1 => exact absurd h List.not_mem_nil
  | case2 p q a as ih =>
    rcases mem_changeAt h with rfl | h
    · simp
    · simpa using Or.inr (ih h)
  | case3 p q b bs ih =>
    rcases mem_changeAt h with rfl | h
    · simp
    · simpa using Or.inr (ih h)
  | case4 p q a as b bs _ ih =>
    rcases mem_changeAt h with rfl | h
    · simp
    · exact (ih h).imp_left (List.mem_cons_of_mem _)
  | case5 p q a as b bs _ _ ih =>
    rcases mem_changeAt h with rfl | h
    · simp
    · exact (ih h).imp_right (List.mem_cons_of_mem _)
  | case6 p q a as b bs _ _ ih =>
    rcases mem_changeAt h with rfl | h
    · simp
    · exact (ih h).imp (List.mem_cons_of_mem _) (List.mem_cons_of_mem _)

theorem hasFrom_changeAt {n m : Nat} {before after : Bool} {rest : List Nat}
    (h : ∀ c ∈ rest, n < c) : hasFrom before (changeAt n before after rest) m =
      if m < n then before else hasFrom after rest m := by
  unfold changeAt
  by_cases he : before = after
  · subst he
    by_cases hm : m < n
    · simp [hm, hasFrom_of_lt fun c hc => Nat.lt_trans hm (h c hc)]
    · simp [hm]
  · have : (!before) = after := by cases before <;> cases after <;> simp_all
    simp [he, hasFrom, this]

theorem hasFrom_merge {op : Bool → Bool → Bool} {p q : Bool} {as bs : List Nat} (n : Nat)
    (ha : Ascending as) (hb : Ascending bs) :
    hasFrom (op p q) (merge op p q as bs) n = op (hasFrom p as n) (hasFrom q bs n) := by
  fun_induction merge op p q as bs with
  | case1 => rfl
  | case2 p q a as ih =>
    have ⟨h, ha⟩ := List.pairwise_cons.1 ha
    rw [hasFrom_changeAt fun c hc => (mem_merge hc).elim (h c) (absurd · List.not_mem_nil),
      ih ha hb]
    by_cases hn : n < a <;> simp [hn, hasFrom]
  | case3 p q b bs ih =>
    have ⟨h, hb⟩ := List.pairwise_cons.1 hb
    rw [hasFrom_changeAt fun c hc => (mem_merge hc).elim (absurd · List.not_mem_nil) (h c),
      ih ha hb]
    by_cases hn : n < b <;> simp [hn, hasFrom]
  | case4 p q a as b bs hlt ih =>
    have ⟨h, ha⟩ := List.pairwise_cons.1 ha
    rw [hasFrom_changeAt fun c hc => (mem_merge hc).elim (h c) (hb.lt_of_lt hlt c), ih ha hb]
    by_cases hn : n < a
    · simp [hn, hasFrom, Nat.lt_trans hn hlt]
    · simp [hn, hasFrom]
  | case5 p q a as b bs hle hlt ih =>
    have ⟨h, hb⟩ := List.pairwise_cons.1 hb
    rw [hasFrom_changeAt fun c hc => (mem_merge hc).elim (ha.lt_of_lt hlt c) (h c), ih ha hb]
    by_cases hn : n < b
    · simp [hn, hasFrom, Nat.lt_trans hn hlt]
    · simp [hn, hasFrom]
  | case6 p q a as b bs hle hge ih =>
    obtain rfl : a = b := by omega
    have ⟨hlt, has⟩ := List.pairwise_cons.1 ha
    have ⟨hlt', hbs⟩ := List.pairwise_cons.1 hb
    rw [hasFrom_changeAt fun c hc => (mem_merge hc).elim (hlt c) (hlt' c), ih has hbs]
    by_cases hn : n < a <;> simp [hn, hasFrom]

def IsOrdered (s : CharSet) : Prop := Ascending s.changes

theorem hasNumber_combine {op : Bool → Bool → Bool} {s t : CharSet} (n : Nat)
    (hop : op false false = false) (hs : s.IsOrdered) (ht : t.IsOrdered) :
    (combine op s t).hasNumber n = op (s.hasNumber n) (t.hasNumber n) := by
  have h := @hasFrom_merge op false false _ _ n hs ht
  rwa [hop] at h

theorem hasNumber_union {s t : CharSet} (n : Nat) (hs : s.IsOrdered) (ht : t.IsOrdered) :
    (s ∪ t).hasNumber n = (s.hasNumber n || t.hasNumber n) := hasNumber_combine n rfl hs ht

theorem hasNumber_inter {s t : CharSet} (n : Nat) (hs : s.IsOrdered) (ht : t.IsOrdered) :
    (s ∩ t).hasNumber n = (s.hasNumber n && t.hasNumber n) := hasNumber_combine n rfl hs ht

theorem hasNumber_diff {s t : CharSet} (n : Nat) (hs : s.IsOrdered) (ht : t.IsOrdered) :
    (s - t).hasNumber n = (s.hasNumber n && !t.hasNumber n) := hasNumber_combine n rfl hs ht

end CharSet
end Schemata.Text
