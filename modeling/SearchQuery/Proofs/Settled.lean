import Mathlib.Data.List.Nodup
import Mathlib.Data.List.Perm.Subperm
import SearchQuery.Query.Basic

/-!
Values whose objects repeat no name. On these the equality of values is an equivalence; an object
that repeats a name need not even equal itself.
-/

namespace SearchQuery

namespace Members

def names (members : Members) : List String := members.map Prod.fst

theorem mem_names {members : Members} (h : (name, v) ∈ members) : name ∈ members.names :=
  List.mem_map_of_mem (f := Prod.fst) h

theorem mem_of_get? {members : Members} (h : members.get? name = some v) :
    (name, v) ∈ members := by
  induction members with
  | nil => cases h
  | cons m rest ih =>
    obtain ⟨n, w⟩ := m
    rw [get?] at h
    split at h
    · cases h
      subst n
      exact .head _
    · exact .tail _ (ih h)

theorem get?_of_mem {members : Members} (hn : members.names.Nodup) (h : (name, v) ∈ members) :
    members.get? name = some v := by
  induction members with
  | nil => cases h
  | cons m rest ih =>
    obtain ⟨n, w⟩ := m
    obtain ⟨hnot, hrest⟩ := List.nodup_cons.1 hn
    rw [get?]
    rcases List.mem_cons.1 h with he | hr
    · cases he
      rw [if_pos rfl]
    · have hne : n ≠ name := by
        intro he
        subst he
        exact hnot (mem_names hr)
      rw [if_neg hne]
      exact ih hrest hr

end Members

namespace Json

/-- Induction on a value with the parts of arrays and objects as lists. -/
@[induction_eliminator]
theorem induction {P : Json → Prop} (null : P .null) (bool : ∀ b, P (.bool b))
    (number : ∀ n, P (.number n)) (string : ∀ s, P (.string s))
    (array : ∀ items, (∀ v ∈ items, P v) → P (.array items))
    (object : ∀ members, (∀ m ∈ members, P m.2) → P (.object members)) (v : Json) : P v :=
  Json.rec (motive_1 := P) (motive_2 := fun items => ∀ v ∈ items, P v)
    (motive_3 := fun members => ∀ m ∈ members, P m.2) (motive_4 := fun m => P m.2)
    null bool number string array object
    (by simp) (by simp_all) (by simp) (by simp_all) (by simp) v

mutual

/-- No object repeats a name, at any depth. -/
def Settled : Json → Prop
  | .array items => SettledItems items
  | .object members => (Members.names members).Nodup ∧ SettledMembers members
  | .null | .bool _ | .number _ | .string _ => True

def SettledItems : List Json → Prop
  | [] => True
  | v :: rest => v.Settled ∧ SettledItems rest

def SettledMembers : List (String × Json) → Prop
  | [] => True
  | (_, v) :: rest => v.Settled ∧ SettledMembers rest

end

theorem settledItems_iff {items : List Json} : SettledItems items ↔ ∀ v ∈ items, v.Settled := by
  induction items with
  | nil => simp [SettledItems]
  | cons v rest ih => rw [SettledItems, ih, List.forall_mem_cons]

theorem SettledItems.mem (h : SettledItems items) (hv : v ∈ items) : v.Settled :=
  settledItems_iff.1 h v hv

theorem SettledMembers.mem (h : SettledMembers members) (hm : m ∈ members) : m.2.Settled := by
  induction members with
  | nil => cases hm
  | cons w rest ih =>
    rcases List.mem_cons.1 hm with he | hr
    · exact he ▸ h.1
    · exact ih h.2 hr

theorem sameMembers_iff {a b : Members} :
    sameMembers a b = true ↔ ∀ m ∈ a, ∃ w, b.get? m.1 = some w ∧ same m.2 w = true := by
  induction a with
  | nil => simp [sameMembers]
  | cons m rest ih =>
    obtain ⟨n, v⟩ := m
    rw [sameMembers, Bool.and_eq_true, ih, List.forall_mem_cons]
    apply and_congr_left'
    cases hb : b.get? n with
    | none => simp
    | some w => simp

theorem same_object_iff {a b : Members} :
    same (.object a) (.object b) = true ↔ a.length = b.length ∧ sameMembers a b = true := by
  simp [same]

theorem same_refl (v : Json) (h : v.Settled) : same v v = true := by
  induction v with
  | null => rfl
  | bool => simp [same]
  | number n => cases n <;> simp [same, Number.same]
  | string => simp [same]
  | array items ih =>
    change sameItems items items = true
    induction items with
    | nil => rfl
    | cons v rest ihr =>
      rw [sameItems, Bool.and_eq_true]
      exact ⟨ih v (.head _) h.1, ihr (fun w hw => ih w (.tail _ hw)) h.2⟩
  | object members ih =>
    rw [same_object_iff, sameMembers_iff]
    refine ⟨rfl, fun m hm => ⟨m.2, Members.get?_of_mem h.1 hm, ?_⟩⟩
    exact ih m hm (SettledMembers.mem h.2 hm)

theorem Number.same_trans {a b c : Number} (hab : a.same b = true) (hbc : b.same c = true) :
    a.same c = true := by
  cases a <;> cases b <;> cases c <;> simp_all [Number.same]

theorem Number.same_symm {a b : Number} (h : a.same b = true) : b.same a = true := by
  cases a <;> cases b <;> simp_all [Number.same]

theorem sameItems_trans {as bs cs : List Json}
    (ih : ∀ v ∈ as, ∀ w u, same v w = true → same w u = true → same v u = true)
    (hab : sameItems as bs = true) (hbc : sameItems bs cs = true) :
    sameItems as cs = true := by
  induction as generalizing bs cs with
  | nil => cases bs <;> cases cs <;> simp_all [sameItems]
  | cons v rest ihr =>
    cases bs with
    | nil => simp [sameItems] at hab
    | cons w bs =>
      cases cs with
      | nil => simp [sameItems] at hbc
      | cons u cs =>
        simp only [sameItems, Bool.and_eq_true] at hab hbc ⊢
        exact ⟨ih v (.head _) w u hab.1 hbc.1, ihr (fun x hx => ih x (.tail _ hx)) hab.2 hbc.2⟩

theorem same_trans {v w u : Json} (hvw : same v w = true) (hwu : same w u = true) :
    same v u = true := by
  induction v generalizing w u with
  | null | bool | string => cases w <;> cases u <;> simp_all [same]
  | number n =>
    cases w <;> cases u <;> simp_all [same]
    exact Number.same_trans hvw hwu
  | array items ih =>
    cases w with
    | array bs =>
      cases u with
      | array cs => exact sameItems_trans (fun v hv w u => ih v hv) hvw hwu
      | _ => simp [same] at hwu
    | _ => simp [same] at hvw
  | object members ih =>
    cases w with
    | object bs =>
      cases u with
      | object cs =>
        rw [same_object_iff, sameMembers_iff] at hvw hwu ⊢
        refine ⟨hvw.1.trans hwu.1, fun m hm => ?_⟩
        obtain ⟨w, hw, hmw⟩ := hvw.2 m hm
        obtain ⟨u, hu, hwu⟩ := hwu.2 (m.1, w) (Members.mem_of_get? hw)
        exact ⟨u, hu, ih m hm hmw hwu⟩
      | _ => simp [same] at hwu
    | _ => simp [same] at hvw

theorem sameItems_symm {as bs : List Json}
    (ih : ∀ v ∈ as, ∀ w, v.Settled → w.Settled → same v w = true → same w v = true)
    (ha : SettledItems as) (hb : SettledItems bs) (h : sameItems as bs = true) :
    sameItems bs as = true := by
  induction as generalizing bs with
  | nil => cases bs <;> simp_all [sameItems]
  | cons v rest ihr =>
    cases bs with
    | nil => simp [sameItems] at h
    | cons w bs =>
      simp only [sameItems, Bool.and_eq_true] at h ⊢
      exact ⟨ih v (.head _) w ha.1 hb.1 h.1,
        ihr (fun x hx => ih x (.tail _ hx)) ha.2 hb.2 h.2⟩

/-- Equal objects have the same names, since neither repeats one. -/
theorem names_subset_of_same {a b : Members} (ha : a.names.Nodup) (hl : a.length = b.length)
    (h : sameMembers a b = true) : b.names ⊆ a.names := by
  have hsub : a.names ⊆ b.names := by
    intro n hn
    obtain ⟨m, hm, rfl⟩ := List.mem_map.1 hn
    obtain ⟨w, hw, _⟩ := sameMembers_iff.1 h m hm
    exact Members.mem_names (Members.mem_of_get? hw)
  have hperm := (ha.subperm hsub).perm_of_length_le (by simp [Members.names, hl])
  exact hperm.symm.subset

theorem same_symm {v w : Json} (hv : v.Settled) (hw : w.Settled) (h : same v w = true) :
    same w v = true := by
  induction v generalizing w with
  | null | bool | string => cases w <;> simp_all [same]
  | number n =>
    cases w <;> simp_all [same]
    exact Number.same_symm h
  | array items ih =>
    cases w with
    | array bs => exact sameItems_symm (fun v hv w hvs hws => ih v hv hvs hws) hv hw h
    | _ => simp [same] at h
  | object members ih =>
    cases w with
    | object bs =>
      rw [same_object_iff] at h ⊢
      refine ⟨h.1.symm, sameMembers_iff.2 fun m hm => ?_⟩
      obtain ⟨n, u⟩ := m
      have hn := names_subset_of_same hv.1 h.1 h.2 (Members.mem_names hm)
      obtain ⟨⟨n, v⟩, hmem, rfl⟩ := List.mem_map.1 hn
      obtain ⟨w, hw', hs⟩ := sameMembers_iff.1 h.2 _ hmem
      rw [Members.get?_of_mem hw.1 hm] at hw'
      cases hw'
      refine ⟨v, Members.get?_of_mem hv.1 hmem, ?_⟩
      exact ih _ hmem (hv.2.mem hmem) (hw.2.mem hm) hs
    | _ => simp [same] at h

end Json

mutual

/-- The constants of an expression are settled, as all values that were decoded are. -/
def Expr.Settled : Expr → Prop
  | .constant v => v.Settled
  | .compare _ left right | .and left right | .or left right => left.Settled ∧ right.Settled
  | .not e | .aggregate _ (some e) => e.Settled
  | .record fields => Expr.SettledFields fields
  | .aggregate _ none | .member _ | .startsWith .. | .regexp .. | .groupKey => True

def Expr.SettledFields : List (String × Expr) → Prop
  | [] => True
  | (_, e) :: rest => e.Settled ∧ Expr.SettledFields rest

end

theorem Expr.SettledFields.mem (h : SettledFields fields) (hm : m ∈ fields) : m.2.Settled := by
  induction fields with
  | nil => cases hm
  | cons first rest ih =>
    rcases List.mem_cons.1 hm with rfl | hr
    · exact h.1
    · exact ih h.2 hr

def Step.Settled : Step → Prop
  | .filter (some e) | .query (some e) | .orderBy (some e) .. | .groupBy (some e)
  | .select (some e) | .execute _ (some e) => e.Settled
  | _ => True

def Query.Settled (q : Query) : Prop := ∀ s ∈ q.steps, s.Settled

end SearchQuery
