import Schemata.Proofs.Json.Text
import Schemata.Proofs.Number.ExactValue

/-! Equality and order among finite numbers, and equality of values that are built of them. Both are
transitive, as they are those of exact values: an infinity would be as large as each of two integers that
differ, but no finite number is. -/

namespace Schemata

namespace Number

variable {a b c : Number}

theorem IsFinite.not_isNaN (h : a.IsFinite) : (!a.isNaN) = true := by
  rw [h.isNaN_eq]
  rfl

theorem equal_trans (ha : a.IsFinite) (hb : b.IsFinite) (hc : c.IsFinite) (hab : a.equal b = true)
    (hbc : b.equal c = true) : a.equal c = true := by
  rw [equal_iff_value ha hb] at hab
  rw [equal_iff_value hb hc] at hbc
  exact (equal_iff_value ha hc).mpr (hab.trans hbc)

theorem le_trans_of_finite (ha : a.IsFinite) (hb : b.IsFinite) (hc : c.IsFinite)
    (hab : a.le b = true) (hbc : b.le c = true) : a.le c = true := by
  rw [le_iff_value ha hb] at hab
  rw [le_iff_value hb hc] at hbc
  exact (le_iff_value ha hc).mpr (hab.trans hbc)

end Number

namespace Value

variable {u v w : Value}

def Ordinary : Value → Prop
  | number n => n.IsFinite
  | object fields => Keyed.Distinct fields
  | _ => True

theorem every_number {n : Number} (h : n.IsFinite) : (number n).Every Ordinary := by
  intro x inside
  cases inside with
  | here => exact h

theorem equal_self (h : v.Every Ordinary) : v.equal v = true := by
  induction v using partsInduction with
  | null => rfl
  | undefined => rfl
  | bool b => exact beq_self_eq_true b
  | number n => exact Number.equal_self h.self
  | string s => exact beq_self_eq_true s
  | array items ih =>
    exact equalItems_iff.mpr (List.forall₂_same.mpr fun v member => ih v member (h.item member))
  | object fields ih =>
    exact equal_object_of_alike h.self
      (List.forall₂_same.mpr fun e member => ⟨rfl, ih e member (h.field member)⟩)
  | dateTime d => exact beq_self_eq_true d.instant

theorem equal_trans (hu : u.Every Ordinary) (hv : v.Every Ordinary) (hw : w.Every Ordinary)
    (huv : u.equal v = true) (hvw : v.equal w = true) : u.equal w = true := by
  induction u using partsInduction generalizing v w with
  | null =>
    cases v with
    | null => exact hvw
    | _ => cases huv
  | undefined =>
    cases v with
    | undefined => exact hvw
    | _ => cases huv
  | bool b =>
    cases v with
    | bool b' => exact beq_iff_eq.mp huv ▸ hvw
    | _ => cases huv
  | number n =>
    cases v with
    | number n' =>
      cases w with
      | number n'' => exact Number.equal_trans hu.self hv.self hw.self huv hvw
      | _ => cases hvw
    | _ => cases huv
  | string s =>
    cases v with
    | string s' => exact beq_iff_eq.mp huv ▸ hvw
    | _ => cases huv
  | array items ih =>
    cases v with
    | array items' =>
      cases w with
      | array items'' =>
        have left := forall₂_and_mem (equalItems_iff.mp huv)
        have right := forall₂_and_mem (equalItems_iff.mp hvw)
        refine equalItems_iff.mpr (forall₂_meet left.flip right ?_)
        intro v _ u w ⟨same, mu, mv⟩ ⟨same', _, mw⟩
        exact ih u mu (hu.item mu) (hv.item mv) (hw.item mw) same same'
      | _ => cases hvw
    | _ => cases huv
  | object fields ih =>
    cases v with
    | object fields' =>
      cases w with
      | object fields'' =>
        rw [equal, Bool.and_eq_true, beq_iff_eq, equalFields_iff] at huv hvw ⊢
        refine ⟨huv.1.trans hvw.1, fun e he => ?_⟩
        obtain ⟨v, found, same⟩ := huv.2 e he
        obtain ⟨w, found', same'⟩ := hvw.2 _ (Keyed.mem_of_get? found)
        refine ⟨w, found', ih e he (hu.field he) (hv.field (Keyed.mem_of_get? found))
          (hw.field (Keyed.mem_of_get? found')) same same'⟩
      | _ => cases hvw
    | _ => cases huv
  | dateTime d =>
    cases v with
    | dateTime d' =>
      cases w with
      | dateTime d'' => exact beq_iff_eq.mpr ((beq_iff_eq.mp huv).trans (beq_iff_eq.mp hvw))
      | _ => cases hvw
    | _ => cases huv

end Value
end Schemata
