import Schemata.Proofs.Library.Reached
import Schemata.Proofs.Library.Session
import Schemata.Proofs.Resolution.Lockstep

/-! Batches whose declarations mention only earlier names. No forward reference arises, so the batch
is added like its declarations one by one, and `createType` builds the same types. -/

namespace Schemata

inductive EndAlike {α β : Type} (R : α → β → Prop) : Except TypeError α → Except TypeError β → Prop
  | error (e : TypeError) : EndAlike R (.error e) (.error e)
  | ok {a : α} {b : β} (h : R a b) : EndAlike R (.ok a) (.ok b)

namespace EndAlike

variable {α β : Type} {R : α → β → Prop} {x : Except TypeError α} {y : Except TypeError β}

theorem eq_error {e : TypeError} (h : EndAlike R x y) (same : y = .error e) : x = .error e := by
  subst same
  cases h
  rfl

theorem exists_of_ok {b : β} (h : EndAlike R x y) (same : y = .ok b) : ∃ a, x = .ok a ∧ R a b := by
  subst same
  cases h with
  | ok h => exact ⟨_, rfl, h⟩

end EndAlike

open Building

namespace Batch

variable {types types' built built' : Keyed Node} {batch batch' : Batch} {fuel fuel' : Nat}
  {stack stack' : List String} {name : String} {p : Progress} {d : Declaration} {id id' : NodeId}
  {n : Node} {g : Graph}

theorem lookUpEach_append {s : Scope} {names : List String} {nodes : List Node} {q : Progress}
    (run : lookUpEach s names p = .ok (nodes, q)) (more : List String) :
    lookUpEach s (names ++ more) p =
      (lookUpEach s more q).map fun r => (nodes ++ r.1, r.2) := by
  rw [lookUpEach_eq, List.mapM_append, ← lookUpEach_eq, ← lookUpEach_eq]
  change (lookUpEach s names p).bind _ = _
  rw [run]
  change (lookUpEach s more q).bind _ = _
  rcases lookUpEach s more q with e | r <;> rfl

theorem build_abreast
    (level : ∀ a, Option.Rel (g.Similar g) (known? built types a) (known? built' types' a))
    (mentioned : ∀ own a, d.Mentions own a → (known? built types a).isSome = true)
    (apart : ∀ a ∈ stack, known? built types a = none)
    (apart' : ∀ a ∈ stack', known? built' types' a = none) :
    Abreast built built' (g.Similar g) ((within types batch fuel stack).build id d)
      ((within types' batch' fuel' stack').build id' d) := by
  refine Scope.build_abreast (fun own a mention => ?_) id id'
  obtain ⟨n, found⟩ := Option.isSome_iff_exists.mp (mentioned own a mention)
  have level := level a
  rw [found] at level
  rcases found' : known? built' types' a with _ | n' <;> rw [found'] at level
  · cases level
  · have similar : g.Similar g n n' := by
      cases level
      assumption
    have free : ¬stack.contains a = true := by
      intro there
      rw [apart a (by simpa using there)] at found
      cases found
    have free' : ¬stack'.contains a = true := by
      intro there
      rw [apart' a (by simpa using there)] at found'
      cases found'
    refine ⟨if_neg free, if_neg free', fun p p' hp hp' => ?_⟩
    subst hp hp'
    change Meet _ p p' (lookUp types batch fuel stack a p) (lookUp types' batch' fuel' stack' a p')
    rw [lookUp_of_known found, lookUp_of_known found']
    exact .ok similar

end Batch

namespace Library

variable {l : Library} {g : Graph} {d : Declaration} {ds : List Declaration}

theorem addTypes_of_error (takes : l.Takes ds) {e : TypeError}
    (run : steps l g ds (start g ds) = .error e) : l.addTypes g ds = .error e := by
  rw [addTypes_of_takes takes, run]
  rfl

theorem addTypes_of_ok (takes : l.Takes ds) {r : List Node × Progress}
    (run : steps l g ds (start g ds) = .ok r) (idle : r.2.forwards = []) :
    ∃ a, l.addTypes g ds = .ok a ∧ a.added = r.1 := by
  have add := addTypes_of_takes (g := g) takes
  rw [run] at add
  change _ = (Batch.bindEach r.2.built r.2.forwards).map _ at add
  rw [idle] at add
  exact ⟨_, add, rfl⟩

theorem createType_eq (l : Library) (g : Graph) (d : Declaration) :
    l.createType g d = ((Batch.within l.types [] 0 []).build g.next d ⟨g.next + 1, [], []⟩).map
      fun r => (r.1, { g with next := r.2.next }) := by
  have same : Batch.scope l.types [] = Batch.within l.types [] 0 [] := rfl
  unfold createType building
  rw [same]
  change ((Batch.within l.types [] 0 []).build g.next d ⟨g.next + 1, [], []⟩).bind _ = _
  rcases (Batch.within l.types [] 0 []).build g.next d ⟨g.next + 1, [], []⟩ with e | r <;> rfl

end Library

namespace Session

/-- Adds declarations one after the other, up to the first one that is refused. -/
def addEach (s : Session) : List Declaration → Except TypeError Session
  | [] => .ok s
  | d :: rest =>
    match s.library.addTypes s.graph [d] with
    | .ok a => addEach ⟨a.graph, a.library⟩ rest
    | .error e => .error e

end Session

namespace Library

/-- Each declaration mentions only names of the library and of declarations before it. -/
def Covers (l : Library) (ds : List Declaration) : Prop :=
  ∀ before d after, ds = before ++ d :: after → ∀ own a, d.Mentions own a →
    a ∈ l.names ∨ a ∈ before.map DeclarationOf.key

/-- In the midst of a batch nothing waits, and each name stands for what is similar to its type in a
library to which the declarations so far were added one by one. -/
structure Level (g : Graph) (l : Library) (p : Progress) (s : Session) : Prop where
  names : ∀ a, Option.Rel (g.Similar g) (Batch.known? p.built l.types a) (s.library.type? a)
  forwards : p.forwards = []
  bindings : s.graph.bindings = g.bindings

variable {l : Library} {g : Graph} {d : Declaration} {ds : List Declaration} {p : Progress}
  {s : Session} {batch : Batch} {fuel : Nat} {id : NodeId} {a : Addition}

theorem addTypes_single (takes : l.Takes [d]) : l.addTypes g [d] =
    ((Batch.within l.types (Batch.numbered g.next [d]) 0 [d.key]).build g.next d
      ⟨g.next + 1, [], []⟩).bind fun r =>
        (Batch.bindEach (Keyed.insert r.2.built d.key r.1) r.2.forwards).map fun bindings =>
          ⟨⟨r.2.next, g.bindings ++ bindings⟩, ⟨Keyed.insert l.types d.key r.1⟩, [r.1]⟩ := by
  have unknown : Batch.known? (start g [d]).built l.types d.key = none :=
    takes.new List.mem_cons_self
  have own : Keyed.get? (Batch.numbered g.next [d]) d.key = some (g.next, d) := if_pos rfl
  have looked := Batch.lookUp_of_new 0 unknown List.not_mem_nil own
  rw [addTypes_of_takes takes]
  change (((Batch.lookUp l.types (Batch.numbered g.next [d]) 1 [] d.key (start g [d])).bind _).bind _) = _
  rw [looked, List.nil_append]
  change (((Batch.within l.types (Batch.numbered g.next [d]) 0 [d.key]).build g.next d
    ⟨g.next + 1, [], []⟩).map _ |>.bind _).bind _ = _
  generalize (Batch.within l.types (Batch.numbered g.next [d]) 0 [d.key]).build g.next d
    ⟨g.next + 1, [], []⟩ = run
  rcases run with e | r <;> rfl

section Step

variable (level : Level g l p s) (takes : s.library.Takes [d])
  (hd : Keyed.get? batch d.key = some (id, d))
  (covered : ∀ own a, d.Mentions own a → a ∈ s.library.names)

include level takes in
theorem Level.unknown : Batch.known? p.built l.types d.key = none := by
  have same := level.names d.key
  have new : s.library.type? d.key = none := takes.new List.mem_cons_self
  rw [new] at same
  generalize Batch.known? p.built l.types d.key = known at same
  cases same
  rfl

include level covered in
theorem Level.mentioned : ∀ own a, d.Mentions own a →
    (Batch.known? p.built l.types a).isSome = true := by
  intro own a mention
  obtain ⟨n, found⟩ := Option.isSome_iff_exists.mp
    (Keyed.hasKey_iff_mem_keys.mpr (covered own a mention))
  have same := level.names a
  rw [type?, found] at same
  generalize Batch.known? p.built l.types a = known at same ⊢
  cases same
  rfl

theorem Level.build (level : Level g l p s) (takes : s.library.Takes [d])
    (covered : ∀ own a, d.Mentions own a → a ∈ s.library.names) (batch batch' : Batch)
    (fuel fuel' : Nat) (stack : List String) (apart : ∀ a ∈ stack, a = d.key) (id id' : NodeId) :
    Meet (g.Similar g) p ⟨s.graph.next + 1, [], []⟩
      ((Batch.within l.types batch fuel [d.key]).build id d p)
      ((Batch.within s.library.types batch' fuel' stack).build id' d ⟨s.graph.next + 1, [], []⟩) := by
  refine Batch.build_abreast level.names (level.mentioned covered) ?_ ?_ _ _ rfl rfl
  · intro a ha
    rw [List.mem_singleton.mp ha]
    exact level.unknown takes
  · intro a ha
    rw [apart a ha]
    exact takes.new List.mem_cons_self

include level takes hd covered in
/-- One more name of the batch, and its declaration added alone. -/
theorem Level.single (fuel : Nat) : EndAlike (fun r a => ∃ n,
      a.library.types = s.library.types ++ [(d.key, n)] ∧ g.Similar g r.1 n ∧
        Level g l r.2 ⟨a.graph, a.library⟩)
    (Batch.lookUp l.types batch (fuel + 1) [] d.key p) (s.library.addTypes s.graph [d]) := by
  rw [Batch.lookUp_of_new fuel (level.unknown takes) List.not_mem_nil hd, addTypes_single takes]
  have meet := level.build takes covered batch (Batch.numbered s.graph.next [d]) fuel 0 [d.key]
    (fun _ => List.mem_singleton.mp) id s.graph.next
  rw [List.nil_append]
  generalize (Batch.within l.types batch fuel [d.key]).build id d p = run at meet ⊢
  generalize (Batch.within s.library.types _ 0 [d.key]).build _ d _ = run' at meet ⊢
  cases meet with
  | error e => exact .error e
  | @ok m n k k' similar =>
    have new : d.key ∉ s.library.types.keys := by
      intro there
      have free := (takes.valid d List.mem_cons_self).2
      rw [contains, Keyed.hasKey_iff_mem_keys.mpr there] at free
      cases free
    refine .ok ⟨n, Keyed.insert_of_not_mem new, similar, fun a => ?_, level.forwards, ?_⟩
    · have other := level.names a
      rw [Batch.known?, Keyed.get?_insert, type?, Keyed.get?_insert]
      split
      · exact .some similar
      · exact other
    · exact (List.append_nil _).trans level.bindings

include level takes hd covered in
theorem Level.created (fuel : Nat) : EndAlike (fun r c => g.Similar g r.1 c.1 ∧ c.2.bindings = g.bindings)
    (Batch.lookUp l.types batch (fuel + 1) [] d.key p) (s.library.createType s.graph d) := by
  rw [Batch.lookUp_of_new fuel (level.unknown takes) List.not_mem_nil hd, createType_eq]
  have meet := level.build takes covered batch [] fuel 0 [] (fun _ h => nomatch h) id s.graph.next
  rw [List.nil_append]
  generalize (Batch.within l.types batch fuel [d.key]).build id d p = run at meet ⊢
  generalize (Batch.within s.library.types [] 0 []).build _ d _ = run' at meet ⊢
  cases meet with
  | error e => exact .error e
  | ok similar => exact .ok ⟨similar, level.bindings⟩

end Step

theorem Closed.level (closed : Closed g l) (next : NodeId) : Level g l ⟨next, [], []⟩ ⟨g, l⟩ := by
  refine ⟨fun a => ?_, rfl, rfl⟩
  change Option.Rel (g.Similar g) (l.type? a) (l.type? a)
  rcases found : l.type? a with _ | n
  · exact .none
  · exact .some (closed.similar a n found)

theorem Closed.alone (closed : Closed g l) (takes : l.Takes [d])
    (covered : ∀ own a, d.Mentions own a → a ∈ l.names) :
    EndAlike (fun a c => ∃ n, a.library.type? d.key = some n ∧ a.graph.Similar c.2 n c.1)
      (l.addTypes g [d]) (l.createType g d) := by
  rw [addTypes_single takes, createType_eq]
  have meet := (closed.level (g.next + 1)).build takes covered (Batch.numbered g.next [d]) [] 0 0 []
    (fun _ h => nomatch h) g.next g.next
  generalize (Batch.within l.types _ 0 [d.key]).build _ d _ = run at meet ⊢
  generalize (Batch.within l.types [] 0 []).build _ d _ = run' at meet ⊢
  cases meet with
  | error e => exact .error e
  | @ok n c k k' similar =>
    have within : g.Within ⟨k, g.bindings ++ []⟩ := .of_eq (List.append_nil _)
    have within' : g.Within ⟨k', g.bindings⟩ := .of_eq rfl
    exact .ok ⟨n, Keyed.get?_insert_self _ _ _, similar.mono within within'⟩

theorem Reached.proper (reached : Reached g l) : l.Proper := by
  induction reached with
  | initial => exact proper_initial
  | fresh => exact proper_initial
  | added _ add proper => exact proper.added add
  | other _ _ _ _ proper => exact proper
  | made _ _ proper => exact proper

theorem Reached.addEach (reached : Reached s.graph s.library) {t : Session}
    (added : s.addEach ds = .ok t) : Reached t.graph t.library := by
  induction ds generalizing s with
  | nil =>
    obtain rfl := Except.ok.inj added
    exact reached
  | cons d rest ih =>
    rw [Session.addEach] at added
    rcases add : s.library.addTypes s.graph [d] with e | a <;> rw [add] at added
    · cases added
    · exact ih (s := ⟨a.graph, a.library⟩) (.added reached add) added

theorem names_addEach {t : Session} (added : s.addEach ds = .ok t) :
    t.library.names = s.library.names ++ ds.map DeclarationOf.key := by
  induction ds generalizing s with
  | nil =>
    obtain rfl := Except.ok.inj added
    exact (List.append_nil _).symm
  | cons d rest ih =>
    rw [Session.addEach] at added
    rcases add : s.library.addTypes s.graph [d] with e | a <;> rw [add] at added
    · cases added
    · rw [ih added, names_of_addTypes add, List.append_assoc]
      rfl

theorem type?_of_added {before after : List Declaration} (proper : l.Proper)
    (add : l.addTypes g (before ++ d :: after) = .ok a) {nodes others : List Node} {n : Node}
    (front : before.length = nodes.length) (added : a.added = nodes ++ n :: others) :
    a.library.type? d.key = some n := by
  refine Keyed.get?_of_mem (e := (d.key, n)) (proper.added add).distinct ?_
  rw [(types_of_addTypes add).1, added, List.map_append, List.map_cons,
    List.zip_append ((List.length_map _).trans front), List.zip_cons_cons]
  exact List.mem_append_right _ (List.mem_append_right _ List.mem_cons_self)

theorem Takes.front (before : List Declaration) (takes : l.Takes (before ++ ds)) : l.Takes before := by
  refine ⟨fun e he => takes.valid e (List.mem_append_left _ he), ?_⟩
  have nodup := takes.nodup
  rw [List.map_append] at nodup
  exact (List.nodup_append.mp nodup).1

theorem Takes.rest (before : List Declaration) (takes : l.Takes (before ++ ds)) {l' : Library}
    (names : l'.names = l.names ++ before.map DeclarationOf.key) : l'.Takes ds := by
  have nodup := takes.nodup
  rw [List.map_append, List.nodup_append] at nodup
  refine ⟨fun e he => ?_, nodup.2.1⟩
  obtain ⟨named, free⟩ := takes.valid e (List.mem_append_right _ he)
  refine ⟨named, Bool.eq_false_iff.mpr fun there => ?_⟩
  have there : e.key ∈ l'.names := Keyed.hasKey_iff_mem_keys.mp there
  rw [names, List.mem_append] at there
  rcases there with there | there
  · rw [contains, Keyed.hasKey_iff_mem_keys.mpr there] at free
    cases free
  · exact nodup.2.2 _ there _ (List.mem_map_of_mem he) rfl

theorem Covers.front (before : List Declaration) (covers : l.Covers (before ++ ds)) :
    l.Covers before := by
  rintro first d after rfl
  exact covers first d (after ++ ds) (by rw [List.append_assoc, List.cons_append])

theorem Covers.rest (before : List Declaration) (covers : l.Covers (before ++ ds)) {l' : Library}
    (names : l'.names = l.names ++ before.map DeclarationOf.key) : l'.Covers ds := by
  rintro first d after rfl own a mention
  have found := covers (before ++ first) d after (List.append_assoc _ _ _).symm own a mention
  rwa [names, List.mem_append, or_assoc, ← List.mem_append, ← List.map_append]

theorem Covers.head (covers : l.Covers (d :: ds)) (own : Grip) (a : String) (mention : d.Mentions own a) :
    a ∈ l.names :=
  (covers [] d ds rfl own a mention).resolve_right List.not_mem_nil

theorem Level.each (level : Level g l p s) (takes : s.library.Takes ds) (covers : s.library.Covers ds)
    (among : ∀ d ∈ ds, ∃ id, Keyed.get? batch d.key = some (id, d)) (room : ds.length ≤ fuel) :
    EndAlike (fun r t => Level g l r.2 t ∧ r.1.length = ds.length ∧
        ∃ nodes, List.Forall₂ (g.Similar g) r.1 nodes ∧
          t.library.types = s.library.types ++ (ds.map DeclarationOf.key).zip nodes)
      (Batch.lookUpEach (Batch.within l.types batch fuel []) (ds.map DeclarationOf.key) p)
      (s.addEach ds) := by
  induction ds generalizing p s with
  | nil => exact .ok ⟨level, rfl, [], .nil, (List.append_nil _).symm⟩
  | cons d rest ih =>
    obtain ⟨id, hd⟩ := among d List.mem_cons_self
    obtain ⟨deeper, rfl⟩ := Nat.exists_eq_add_of_le' (Nat.lt_of_lt_of_le (Nat.succ_pos _) room)
    have first := level.single (takes.front [d]) hd covers.head deeper
    rw [Session.addEach]
    change EndAlike _ ((Batch.lookUp l.types batch (deeper + 1) [] d.key p).bind fun r =>
      (Batch.lookUpEach (Batch.within l.types batch (deeper + 1) []) (rest.map DeclarationOf.key)
        r.2).bind fun r' => .ok (r.1 :: r'.1, r'.2)) _
    generalize Batch.lookUp l.types batch (deeper + 1) [] d.key p = run at first ⊢
    generalize s.library.addTypes s.graph [d] = run' at first ⊢
    cases first with
    | error e => exact .error e
    | @ok r a h =>
      obtain ⟨n, types, similar, level⟩ := h
      have names : a.library.names = s.library.names ++ [d].map DeclarationOf.key := by
        rw [Library.names, types, Keyed.keys_append]
        rfl
      have others := ih level (takes.rest [d] names) (covers.rest [d] names)
        (fun e he => among e (List.mem_cons_of_mem _ he)) (Nat.le_of_succ_le room)
      change EndAlike _ ((Batch.lookUpEach (Batch.within l.types batch (deeper + 1) [])
        (rest.map DeclarationOf.key) r.2).bind _) (Session.addEach ⟨a.graph, a.library⟩ rest)
      generalize Batch.lookUpEach (Batch.within l.types batch (deeper + 1) []) _ r.2 = run at others ⊢
      generalize Session.addEach ⟨a.graph, a.library⟩ rest = run' at others ⊢
      cases others with
      | error e => exact .error e
      | ok h =>
        obtain ⟨level, length, nodes, each, types'⟩ := h
        refine .ok ⟨level, congrArg Nat.succ length, n :: nodes, .cons similar each, ?_⟩
        rw [types', types, List.append_assoc]
        rfl

theorem alike_zip {R : Node → Node → Prop} {nodes nodes' : List Node}
    (each : List.Forall₂ R nodes nodes') (names : List String) :
    Keyed.Alike R (names.zip nodes) (names.zip nodes') := by
  induction each generalizing names with
  | nil =>
    rw [List.zip_nil_right]
    exact .nil
  | cons h _ ih =>
    rcases names with _ | ⟨name, names⟩
    · exact .nil
    · exact .cons ⟨rfl, h⟩ (ih names)

theorem exists_level_of_addEach (closed : Closed g l) {before after : List Declaration}
    (takes : l.Takes (before ++ d :: after)) (covers : l.Covers (before ++ d :: after))
    (added : Session.addEach ⟨g, l⟩ before = .ok s) :
    ∃ nodes p fuel id, before.length = nodes.length ∧ Level g l p s ∧
      Keyed.get? (Batch.numbered g.next (before ++ d :: after)) d.key = some (id, d) ∧
      steps l g (before ++ d :: after) (start g (before ++ d :: after)) =
        ((Batch.lookUp l.types (Batch.numbered g.next (before ++ d :: after)) (fuel + 1) [] d.key p).bind
          fun x => (Batch.lookUpEach (Batch.within l.types
            (Batch.numbered g.next (before ++ d :: after)) (fuel + 1) []) (after.map DeclarationOf.key)
              x.2).bind fun y => .ok (x.1 :: y.1, y.2)).map fun y => (nodes ++ y.1, y.2) := by
  have room : (Batch.numbered g.next (before ++ d :: after)).length =
      before.length + after.length + 1 := by
    rw [Batch.length_numbered, List.length_append]
    rfl
  have among : ∀ e ∈ before ++ d :: after,
      ∃ id, Keyed.get? (Batch.numbered g.next (before ++ d :: after)) e.key = some (id, e) :=
    fun e he => Batch.get?_numbered_of_mem takes.nodup he
  have room' : before.length ≤ before.length + after.length + 1 :=
    Nat.le_succ_of_le (Nat.le_add_right _ _)
  have each := (closed.level (g.next + (before ++ d :: after).length)).each (takes.front before)
    (covers.front before) (fun e he => among e (List.mem_append_left _ he)) room'
  obtain ⟨r, run, level, length, -⟩ := each.exists_of_ok added
  obtain ⟨id, hd⟩ := among d (List.mem_append_right _ List.mem_cons_self)
  refine ⟨r.1, r.2, before.length + after.length, id, length.symm, level, hd, ?_⟩
  have scope : Batch.scope l.types (Batch.numbered g.next (before ++ d :: after)) =
      Batch.within l.types (Batch.numbered g.next (before ++ d :: after))
        (before.length + after.length + 1) [] := by
    rw [← room]
    rfl
  rw [steps, scope, List.map_append]
  exact Batch.lookUpEach_append run _

theorem addTypes_alike_addEach (reached : Reached g l) (takes : l.Takes ds) (covers : l.Covers ds) :
    EndAlike (fun a t => Keyed.Alike (a.graph.Similar t.graph) a.library.types t.library.types)
      (l.addTypes g ds) (Session.addEach ⟨g, l⟩ ds) := by
  have closed := reached.closed
  have each : EndAlike _ (steps l g ds (start g ds)) (Session.addEach ⟨g, l⟩ ds) :=
    (closed.level (g.next + ds.length)).each takes covers
      (fun d hd => Batch.get?_numbered_of_mem takes.nodup hd)
      (Nat.le_of_eq (Batch.length_numbered _ _).symm)
  rcases added : Session.addEach ⟨g, l⟩ ds with e | t
  · rw [addTypes_of_error takes (each.eq_error added)]
    exact .error e
  · obtain ⟨r, run, level, -, nodes, similar, types⟩ := each.exists_of_ok added
    obtain ⟨a, add, same⟩ := addTypes_of_ok takes run level.forwards
    have within : g.Within a.graph := within_of_addTypes add
    have within' : g.Within t.graph := .of_eq level.bindings
    rw [add]
    refine .ok ?_
    rw [types, (types_of_addTypes add).1, same]
    refine List.rel_append ?_ (alike_zip (similar.imp fun _ _ h => h.mono within within') _)
    refine List.forall₂_same.mpr fun e he => ⟨rfl, ?_⟩
    have found : l.type? e.1 = some e.2 := Keyed.get?_of_mem reached.proper.distinct he
    exact (closed.similar _ _ found).mono within within'

/-- A batch of fresh names whose declarations mention only earlier names is added exactly when its
declarations are added one by one: with the same error, or with similar types under the same names
in order. `createType` on each declaration, after those before it, agrees with adding it. -/
theorem addTypes_singly (reached : Reached g l) (takes : l.Takes ds) (covers : l.Covers ds) :
    EndAlike (fun a t => Keyed.Alike (a.graph.Similar t.graph) a.library.types t.library.types)
        (l.addTypes g ds) (Session.addEach ⟨g, l⟩ ds) ∧
      ∀ before d after s, ds = before ++ d :: after → Session.addEach ⟨g, l⟩ before = .ok s →
        EndAlike (fun a c => ∃ n, a.library.type? d.key = some n ∧ a.graph.Similar c.2 n c.1)
            (s.library.addTypes s.graph [d]) (s.library.createType s.graph d) ∧
          (∀ e, s.library.createType s.graph d = .error e → l.addTypes g ds = .error e) ∧
          ∀ a c, l.addTypes g ds = .ok a → s.library.createType s.graph d = .ok c →
            ∃ n, a.library.type? d.key = some n ∧ a.graph.Similar c.2 n c.1 := by
  constructor
  · exact addTypes_alike_addEach reached takes covers
  · rintro before d after s rfl added
    have names := names_addEach added
    have alone : s.library.Takes [d] := (takes.rest before names).front [d]
    have covered := (covers.rest before names).head
    obtain ⟨nodes, p, fuel, id, front, level, hd, split⟩ :=
      exists_level_of_addEach reached.closed takes covers added
    have created := level.created alone hd covered fuel
    refine ⟨(reached.addEach added).closed.alone alone covered, fun e refused => ?_,
      fun a c add made => ?_⟩
    · apply addTypes_of_error takes
      rw [split, created.eq_error refused]
      rfl
    · obtain ⟨x, looked, similar, bindings⟩ := created.exists_of_ok made
      obtain ⟨-, found, progress, bound, run, -, same⟩ := addTypes_eq_ok.mp add
      rw [split, looked] at run
      change ((Batch.lookUpEach _ _ x.2).bind fun y => .ok (x.1 :: y.1, y.2)).map _ = _ at run
      generalize Batch.lookUpEach _ _ x.2 = rest at run
      rcases rest with e | y
      · cases run
      · have added : a.added = nodes ++ x.1 :: y.1 := by
          rw [same]
          exact (congrArg Prod.fst (Except.ok.inj run)).symm
        have within' : g.Within c.2 := .of_eq bindings
        exact ⟨x.1, type?_of_added reached.proper add front added,
          similar.mono (within_of_addTypes add) within'⟩

theorem addTypes_singly_of_two :
    let pair : Declaration := { DeclarationOf.named "pair" with
      properties := some [("first", .name "string"), ("second", .name "number")] }
    let pairs : Declaration := { DeclarationOf.named "pairs" with items := some (.name "pair") }
    Reached .initial .initial ∧ initial.Takes [pair, pairs] ∧ initial.Covers [pair, pairs] ∧
      ∃ a t, initial.addTypes .initial [pair, pairs] = .ok a ∧
        Session.addEach ⟨.initial, .initial⟩ [pair, pairs] = .ok t ∧
        Keyed.Alike (a.graph.Similar t.graph) a.library.types t.library.types := by
  intro pair pairs
  have adds : (initial.addTypes .initial [pair, pairs]).toOption.isSome = true := by decide +kernel
  rcases add : initial.addTypes .initial [pair, pairs] with e | a
  · rw [add] at adds
    cases adds
  have takes := (addTypes_eq_ok.mp add).1
  have scalars : ∀ own a, pair.Mentions own a → a ∈ initial.names := by
    rintro own a ⟨grip, r, mem, mention⟩
    have part : r = .name "string" ∨ r = .name "number" :=
      (List.mem_pair.mp mem).imp (congrArg Prod.snd) (congrArg Prod.snd)
    rcases part with rfl | rfl <;> cases mention <;> decide
  have items : ∀ own a, pairs.Mentions own a → a = "pair" := by
    rintro own a ⟨grip, r, mem, mention⟩
    obtain rfl : r = .name "pair" := congrArg Prod.snd (List.mem_singleton.mp mem)
    cases mention
    rfl
  have covers : initial.Covers [pair, pairs] := by
    intro before d after split own a mention
    rcases before with _ | ⟨first, _ | ⟨second, before⟩⟩
    · obtain ⟨same, -⟩ := List.cons.inj split
      exact .inl (scalars own a (same ▸ mention))
    · obtain ⟨same, split⟩ := List.cons.inj split
      obtain ⟨same', -⟩ := List.cons.inj split
      rw [items own a (same' ▸ mention)]
      exact .inr (same ▸ List.mem_cons_self)
    · exact absurd (congrArg List.length split) (by simp)
  have both := (addTypes_singly .initial takes covers).1
  rw [add] at both
  rcases added : Session.addEach ⟨.initial, .initial⟩ [pair, pairs] with e | t <;>
    rw [added] at both <;> cases both
  exact ⟨.initial, takes, covers, a, t, rfl, rfl, ‹_›⟩

end Library
end Schemata
