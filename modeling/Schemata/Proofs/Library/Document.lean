import Mathlib
import Schemata.Proofs.Declaration.Naming
import Schemata.Proofs.Library.Session
import Schemata.Proofs.Resolution.Faults

/-! The two forms of a document. A list refuses a repeated name with `duplicateName`; a map is read
into an ordered map, where the last entry of a name wins. So they agree if no name is repeated, or
if an earlier name fails anyway. -/

namespace Schemata

theorem Keyed.keys_foldl_insert {α : Type} (more entries : Keyed α) :
    entries.keys <+: Keyed.keys (more.foldl (fun acc e => insert acc e.1 e.2) entries) := by
  induction more generalizing entries with
  | nil => exact List.prefix_refl _
  | cons e rest ih =>
    refine List.IsPrefix.trans ?_ (ih (entries.insert e.1 e.2))
    rw [keys_insert]
    split
    · exact List.prefix_refl _
    · exact List.prefix_append _ _

theorem Keyed.keys_ofEntries {α : Type} {entries : Keyed α} {front back : List String}
    (split : entries.keys = front ++ back) (nodup : front.Nodup) : front <+: (ofEntries entries).keys := by
  obtain ⟨before, after, rfl, rfl, -⟩ := List.map_eq_append_iff.mp split
  have first : ofEntries before = before := foldl_insert_of_new (fun _ _ => List.not_mem_nil) nodup
  rw [ofEntries, List.foldl_append, ← ofEntries, first]
  exact keys_foldl_insert after before

theorem mapM_eq_some {α β : Type} {f : α → Option β} {xs : List α} {ys : List β}
    (each : List.Forall₂ (fun x y => f x = some y) xs ys) : xs.mapM f = some ys := by
  induction each with
  | nil => rfl
  | cons first _ ih =>
    rw [List.mapM_cons, first, ih]
    rfl

theorem mapM_eq_none {α β : Type} {f : α → Option β} {xs : List α} {x : α} (member : x ∈ xs) (fails : f x = none) :
    xs.mapM f = none := by
  induction xs with
  | nil => cases member
  | cons y rest ih =>
    rw [List.mapM_cons]
    rcases List.mem_cons.mp member with rfl | member
    · rw [fails]
      rfl
    · rw [ih member]
      cases f y <;> rfl

namespace Declaration

variable {pairs : List (String × Tree)} {records : List Tree} {entries : List (String × Declaration)}

def under (e : String × Declaration) : Declaration := e.2.called (some e.1)

def Reads (e : String × Tree) (f : String × Declaration) : Prop := e.1 = f.1 ∧ ofTree? e.2 = .ok f.2

def Lists (pairs : List (String × Tree)) (records : List Tree) : Prop :=
  List.Forall₂ (fun e r => SetsName e.1 e.2 r) pairs records

def named? (e : String × Tree) : Option (String × Declaration) := (success? (ofTree? e.2)).map (e.1, ·)

theorem document?_map_eq (pairs : List (String × Tree)) : document? (.map pairs) =
    (pairs.mapM named?).map fun named => (Keyed.ofEntries named).map fun e => e.2.called (some (e.2.name.getD e.1)) :=
  rfl

theorem document?_map (lists : Lists pairs records) (read : List.Forall₂ Reads pairs entries) :
    document? (.map pairs) = some ((Keyed.ofEntries entries).map under) := by
  have named : pairs.mapM named? = some entries := by
    refine mapM_eq_some (read.imp fun e f reads => ?_)
    rw [named?, reads.2, reads.1]
    rfl
  rw [document?_map_eq, named]
  refine congrArg some (List.map_congr_left fun e member => ?_)
  obtain ⟨pair, there, -, reads⟩ := exists_of_forall₂_of_mem read.flip (Keyed.mem_ofEntries member)
  obtain ⟨record, -, sets⟩ := exists_of_forall₂_of_mem lists there
  rw [name_of_setsName sets reads]
  rfl

theorem document?_list (lists : Lists pairs records) (read : List.Forall₂ Reads pairs entries) :
    document? (.list records) = some (entries.map under) := by
  refine mapM_eq_some (List.forall₂_map_right_iff.mpr (forall₂_meet lists read fun e _ r f sets reads => ?_))
  rw [ofTree?_of_setsName sets, reads.2, reads.1]
  rfl

theorem document?_of_error (lists : Lists pairs records) {e : String × Tree} (member : e ∈ pairs)
    {fault : DeclarationError} (failed : ofTree? e.2 = .error fault) :
    document? (.map pairs) = none ∧ document? (.list records) = none := by
  constructor
  · have unread : pairs.mapM named? = none := by
      refine mapM_eq_none member ?_
      rw [named?, failed]
      rfl
    rw [document?_map_eq, unread]
    rfl
  · obtain ⟨record, there, sets⟩ := exists_of_forall₂_of_mem lists member
    refine mapM_eq_none there ?_
    rw [ofTree?_of_setsName sets, failed]
    rfl

end Declaration

theorem mem_of_splits {α : Type} {front back before after : List α} {a b : α}
    (same : front ++ a :: back = before ++ b :: after) (repeated : a ∈ front) (nodup : before.Nodup) : b ∈ front := by
  rcases List.append_eq_append_iff.mp same with ⟨more, rfl, behind⟩ | ⟨more, rfl, behind⟩
  · rcases more with _ | ⟨x, more⟩
    · obtain ⟨rfl, -⟩ := List.cons.inj behind
      exact repeated
    · obtain ⟨rfl, -⟩ := List.cons.inj behind
      exact absurd rfl ((List.nodup_append.mp nodup).2.2 a repeated a List.mem_cons_self)
  · rcases more with _ | ⟨x, more⟩
    · obtain ⟨rfl, -⟩ := List.cons.inj behind
      exact repeated
    · obtain ⟨rfl, -⟩ := List.cons.inj behind
      exact List.mem_append_right _ List.mem_cons_self

namespace Library

variable {l : Library} {g : Graph} {ds : List Declaration} {front back : List String} {name : String} {e : TypeError}

/-- A name that cannot be added behind others. -/
def Refuses (l : Library) (front : List String) (name : String) : Prop :=
  isName name = false ∨ name ∈ l.names ∨ name ∈ front

def refusal (name : String) : TypeError := if isName name then .duplicateName name else .invalidName name

structure Free (l : Library) (names : List String) : Prop where
  valid : ∀ a ∈ names, isName a = true ∧ a ∉ l.names
  nodup : names.Nodup

theorem Free.append_singleton (free : l.Free front) (taken : ¬l.Refuses front name) : l.Free (front ++ [name]) := by
  unfold Refuses at taken
  rw [not_or, not_or, Bool.not_eq_false] at taken
  refine ⟨fun a member => ?_, List.nodup_append.mpr ⟨free.nodup, List.pairwise_singleton _ _, ?_⟩⟩
  · rcases List.mem_append.mp member with member | member
    · exact free.valid a member
    · obtain rfl := List.mem_singleton.mp member
      exact ⟨taken.1, taken.2.1⟩
  · intro a member b last same
    obtain rfl := List.mem_singleton.mp last
    exact taken.2.2 (same ▸ member)

/-- Names can be added, or one of them is the first that cannot. -/
theorem free_or_refuses (l : Library) (names : List String) : l.Free names ∨
    ∃ front name back, names = front ++ name :: back ∧ l.Free front ∧ l.Refuses front name := by
  induction names using List.reverseRecOn with
  | nil => exact .inl ⟨nofun, List.nodup_nil⟩
  | append_singleton front name ih =>
    rcases ih with free | ⟨before, first, after, rfl, free, refused⟩
    · by_cases refused : l.Refuses front name
      · exact .inr ⟨front, name, [], rfl, free, refused⟩
      · exact .inl (free.append_singleton refused)
    · exact .inr ⟨before, first, after ++ [name], List.append_assoc _ _ _, free, refused⟩

theorem batch?_of_refuses {next : NodeId} {batch : Batch} (names : ds.map DeclarationOf.key = front ++ name :: back)
    (free : l.Free front) (apart : ∀ a ∈ front, a ∉ Keyed.keys batch)
    (refused : l.Refuses (Keyed.keys batch ++ front) name) : l.batch? next batch ds = .error (refusal name) := by
  induction front generalizing ds next batch with
  | nil =>
    obtain ⟨d, rest, rfl, rfl, -⟩ := List.map_eq_cons_iff.mp names
    rw [List.append_nil] at refused
    rw [batch?_cons, refusal]
    rcases named : isName d.key
    · rfl
    · have valid : ¬isName d.key = false := fun unnamed => Bool.false_ne_true (unnamed.symm.trans named)
      rw [if_neg Bool.false_ne_true.symm, if_pos (refused.resolve_left valid), if_pos rfl]
  | cons a front ih =>
    obtain ⟨d, rest, rfl, rfl, behind⟩ := List.map_eq_cons_iff.mp names
    obtain ⟨here, there⟩ := List.forall_mem_cons.mp free.valid
    obtain ⟨unheld, apart⟩ := List.forall_mem_cons.mp apart
    obtain ⟨first, nodup⟩ := List.nodup_cons.mp free.nodup
    have keys : Keyed.keys (batch ++ [(d.key, (next, d))]) = Keyed.keys batch ++ [d.key] := Keyed.keys_append _ _
    rw [batch?_cons, here.1, if_neg Bool.false_ne_true.symm, if_neg (not_or.mpr ⟨here.2, unheld⟩)]
    refine ih behind ⟨there, nodup⟩ (fun b member held => ?_) ?_
    · rw [keys, List.mem_append, List.mem_singleton] at held
      rcases held with held | rfl
      · exact apart b member held
      · exact first member
    · rwa [keys, List.append_assoc]

theorem addTypes_of_batch? (refused : l.batch? g.next [] ds = .error e) : l.addTypes g ds = .error e := by
  unfold addTypes
  rw [refused]
  rfl

theorem batch?_of_addTypes (refused : l.addTypes g ds = .error e) (about : e.RefusesName) :
    l.batch? g.next [] ds = .error e := by
  rcases hb : l.batch? g.next [] ds with e' | batch
  · exact congrArg Except.error (Except.error.inj ((addTypes_of_batch? hb).symm.trans refused))
  · rw [addTypes_of_takes (batch?_eq_ok.mp hb).2] at refused
    rcases run : steps l g ds (start g ds) with e' | ⟨added, progress⟩ <;> rw [run] at refused
    · obtain rfl := Except.error.inj refused
      exact absurd about (Batch.lookUpEach_admits _ _ _ run)
    · obtain ⟨bindings, bound⟩ := exists_bindings run
      change (Batch.bindEach progress.built progress.forwards).map _ = _ at refused
      rw [bound] at refused
      cases refused

open Declaration (under)

theorem keys_under (entries : List (String × Declaration)) :
    (entries.map under).map DeclarationOf.key = Keyed.keys entries := by
  rw [List.map_map]
  rfl

theorem addTypes_of_refuses (names : ds.map DeclarationOf.key = front ++ name :: back) (free : l.Free front)
    (refused : l.Refuses front name) : l.addTypes g ds = .error (refusal name) :=
  addTypes_of_batch? (batch?_of_refuses names free (fun _ _ => List.not_mem_nil) refused)

theorem mem_names_of_duplicate (nodup : (ds.map DeclarationOf.key).Nodup)
    (refused : l.addTypes g ds = .error (.duplicateName name)) : name ∈ l.names := by
  obtain ⟨before, d, after, rfl, fault⟩ := batch?_eq_error (batch?_of_addTypes refused trivial)
  rcases fault with ⟨-, other⟩ | ⟨taken, same⟩
  · cases other
  · obtain rfl := TypeError.duplicateName.inj same
    rw [List.map_append, List.map_cons] at nodup
    have once : d.key ∉ before.map DeclarationOf.key := fun earlier =>
      (List.nodup_append.mp nodup).2.2 _ earlier _ List.mem_cons_self rfl
    rcases taken with held | held | held
    · exact Keyed.hasKey_iff_mem_keys.mp held
    · cases held
    · exact absurd held once

def Indifferent (l : Library) (names : List String) : Prop :=
  names.Nodup ∨ ∃ front name back, names = front ++ name :: back ∧ front.Nodup ∧ (isName name = false ∨ name ∈ l.names)

theorem not_indifferent (free : l.Free front) (repeated : name ∈ front) :
    ¬l.Indifferent (front ++ name :: back) := by
  rintro (nodup | ⟨before, first, after, split, nodup, bad⟩)
  · exact absurd rfl ((List.nodup_append.mp nodup).2.2 name repeated name List.mem_cons_self)
  · obtain ⟨named, new⟩ := free.valid first (mem_of_splits split repeated nodup)
    rcases bad with unnamed | held
    · cases named.symm.trans unnamed
    · exact absurd held new

theorem addTypes_ofEntries (l : Library) (g : Graph) (entries : List (String × Declaration)) :
    l.addTypes g ((Keyed.ofEntries entries).map under) = l.addTypes g (entries.map under) ∧
        l.Indifferent (Keyed.keys entries) ∨
      l.addTypes g ((Keyed.ofEntries entries).map under) ≠ l.addTypes g (entries.map under) ∧
        ¬l.Indifferent (Keyed.keys entries) ∧ ∃ name ∈ Keyed.keys entries, name ∉ l.names ∧
          l.addTypes g (entries.map under) = .error (.duplicateName name) := by
  rcases free_or_refuses l (Keyed.keys entries) with free | ⟨front, name, back, names, free, refused⟩
  · have once : Keyed.ofEntries entries = entries :=
      Keyed.foldl_insert_of_new (fun _ _ => List.not_mem_nil) free.nodup
    rw [once]
    exact .inl ⟨rfl, .inl free.nodup⟩
  have listed : l.addTypes g (entries.map under) = .error (refusal name) :=
    addTypes_of_refuses ((keys_under entries).trans names) free refused
  rw [listed]
  by_cases repeated : name ∈ front
  · obtain ⟨valid, new⟩ := free.valid name repeated
    rw [refusal, if_pos valid]
    refine .inr ⟨fun same => new (mem_names_of_duplicate ?_ same), ?_, name, ?_, new, rfl⟩
    · rw [keys_under]
      exact Keyed.distinct_ofEntries entries
    · rw [names]
      exact not_indifferent free repeated
    · rw [names]
      exact List.mem_append_left _ repeated
  · have bad : isName name = false ∨ name ∈ l.names := refused.imp id fun taken => taken.resolve_right repeated
    refine .inl ⟨?_, .inr ⟨front, name, back, names, free.nodup, bad⟩⟩
    -- The names up to this one stay in front when the last declarations are kept, so it is again the first.
    have nodup : (front ++ [name]).Nodup := List.nodup_append.mpr
      ⟨free.nodup, List.pairwise_singleton _ _, fun a member b last same => repeated
        (List.mem_singleton.mp last ▸ same ▸ member)⟩
    rw [List.append_cons] at names
    obtain ⟨more, kept⟩ := Keyed.keys_ofEntries names nodup
    have names' : ((Keyed.ofEntries entries).map under).map DeclarationOf.key = front ++ name :: more := by
      rw [keys_under, ← kept, List.append_assoc, List.singleton_append]
    exact addTypes_of_refuses names' free refused

theorem addDocument_of_none (l : Library) (g : Graph) {t : Tree} (unread : Declaration.document? t = none) :
    l.addDocument g (some t) = .error .document := by
  rw [addDocument, Option.bind_some, unread]

theorem addDocument_of_some (l : Library) (g : Graph) {t : Tree} (read : Declaration.document? t = some ds) :
    l.addDocument g (some t) = (l.addTypes g ds).mapError LoadError.type := by
  rw [addDocument, Option.bind_some, read]
  dsimp only
  rcases l.addTypes g ds <;> rfl

theorem mapError_inj {x y : Except TypeError Addition} :
    x.mapError LoadError.type = y.mapError LoadError.type ↔ x = y := by
  refine ⟨fun same => ?_, congrArg _⟩
  rcases x with e | a <;> rcases y with e' | a'
  · exact congrArg Except.error (LoadError.type.inj (Except.error.inj same))
  · cases same
  · cases same
  · exact congrArg Except.ok (Except.ok.inj same)

/-- A map of declarations and the corresponding list have the same outcome exactly when a
declaration is malformed, no name is repeated, or a name in front of all repetitions is refused
anyway. Otherwise the list fails with `duplicateName`. -/
theorem addJson_forms_iff (l : Library) (g : Graph) {mapText listText : String} {pairs : List (String × Tree)}
    {records : List Tree} (map : Json.read? mapText = some (.map pairs))
    (list : Json.read? listText = some (.list records)) (lists : Declaration.Lists pairs records) :
    (l.addJson g mapText = l.addJson g listText ↔
      (∃ e ∈ pairs, ∃ fault, Declaration.ofTree? e.2 = .error fault) ∨ (Keyed.keys pairs).Nodup ∨
        ∃ front name back, Keyed.keys pairs = front ++ name :: back ∧ front.Nodup ∧
          (isName name = false ∨ name ∈ l.names)) ∧
      (l.addJson g mapText ≠ l.addJson g listText → ∃ name ∈ Keyed.keys pairs, name ∉ l.names ∧
        l.addJson g listText = .error (.type (.duplicateName name))) := by
  rw [addJson, addJson, map, list]
  by_cases malformed : ∃ e ∈ pairs, ∃ fault, Declaration.ofTree? e.2 = .error fault
  · obtain ⟨e, member, fault, failed⟩ := malformed
    obtain ⟨unmapped, unlisted⟩ := Declaration.document?_of_error lists member failed
    rw [addDocument_of_none l g unmapped, addDocument_of_none l g unlisted]
    exact ⟨⟨fun _ => .inl ⟨e, member, fault, failed⟩, fun _ => rfl⟩, fun differ => absurd rfl differ⟩
  · have each (e : String × Tree) (member : e ∈ pairs) : ∃ f, Declaration.Reads e f := by
      rcases read : Declaration.ofTree? e.2 with fault | d
      · exact absurd ⟨e, member, fault, read⟩ malformed
      · exact ⟨(e.1, d), rfl, read⟩
    obtain ⟨entries, read⟩ := exists_forall₂ each
    have keys : Keyed.keys pairs = Keyed.keys entries := map_eq_of_forall₂ (read.imp fun _ _ reads => reads.1)
    rw [addDocument_of_some l g (Declaration.document?_map lists read),
      addDocument_of_some l g (Declaration.document?_list lists read), keys]
    rcases addTypes_ofEntries l g entries with ⟨same, indifferent⟩ | ⟨differ, different, name, member, new, refused⟩
    · rw [same]
      exact ⟨⟨fun _ => .inr indifferent, fun _ => rfl⟩, fun differ => absurd rfl differ⟩
    · refine ⟨iff_of_false (fun same => differ (mapError_inj.mp same)) ?_, fun _ => ⟨name, member, new, ?_⟩⟩
      · exact not_or.mpr ⟨malformed, different⟩
      · rw [refused]
        rfl

theorem addJson_forms_of_base :
    let mapText := "\x7b\"A\":\x7b\"type\":\"nil\"\x7d,\"any\":[],\"A\":\x7b\x7d\x7d"
    let listText := "[\x7b\"type\":\"nil\",\"name\":\"A\"\x7d,[\"any\"],\x7b\"name\":\"A\"\x7d]"
    initial.addJson .initial mapText = initial.addJson .initial listText := by
  intro mapText listText
  have map : Json.read? mapText = some (.map [("A", .map [("type", .string "nil")]), ("any", .list []),
    ("A", .map [])]) := by cbv
  have list : Json.read? listText = some (.list [.map [("type", .string "nil"), ("name", .string "A")],
    .list [.string "any"], .map [("name", .string "A")]]) := by cbv
  refine (addJson_forms_iff initial .initial map list ?_).1.mpr (.inr (.inr ⟨["A"], "any", ["A"], rfl, ?_, ?_⟩))
  · exact .cons (.map [("type", .string "nil")] [] (by decide)) (.cons .empty (.cons (.map [] [] (by decide)) .nil))
  · exact List.nodup_cons.mpr ⟨List.not_mem_nil, List.nodup_nil⟩
  · exact .inr (by decide)

/-- A repeated name is refused in a list; in a map the last entry is added. -/
theorem not_forms_agree :
    let mapText := "\x7b\"A\":\x7b\"type\":\"nil\"\x7d,\"A\":\x7b\x7d\x7d"
    let listText := "[\x7b\"name\":\"A\",\"type\":\"nil\"\x7d,\x7b\"name\":\"A\"\x7d]"
    (∃ pairs records, Json.read? mapText = some (.map pairs) ∧ Json.read? listText = some (.list records) ∧
      Declaration.Lists pairs records) ∧
    initial.addJson .initial listText = .error (.type (.duplicateName "A")) ∧
      ∃ a, initial.addJson .initial mapText = .ok a ∧ (a.library.type? "A").map Node.base = some .string := by
  intro mapText listText
  have map : Json.read? mapText = some (.map [("A", .map [("type", .string "nil")]), ("A", .map [])]) := by cbv
  have list : Json.read? listText = some (.list [.map [("name", .string "A"), ("type", .string "nil")],
    .map [("name", .string "A")]]) := by cbv
  have last : (initial.addJson .initial mapText).toOption.map (fun a => (a.library.type? "A").map Node.base) =
      some (some .string) := by decide +kernel
  refine ⟨⟨_, _, map, list, ?_⟩, ?_, ?_⟩
  · exact .cons (.map [] [("type", .string "nil")] (by decide)) (.cons (.map [] [] (by decide)) .nil)
  · cbv
  · rcases add : initial.addJson .initial mapText with e | a <;> rw [add] at last
    · cases last
    · exact ⟨a, rfl, Option.some.inj last⟩

end Library
end Schemata
