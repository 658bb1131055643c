import SearchQuery.Planner
import SearchQuery.Proofs.Chain

/-!
The path a request is sent to, and what it tells of the index and the collection. No index has a
slash in its name, so the first slash ends it; but a collection may have one. Paths are ambiguous in
this way only: a collection of no index may have a name that reads as an index with a collection.
-/

namespace SearchQuery

namespace Text

theorem slash_lt_of_mem_lowercaseRanges :
    ∀ r ∈ lowercaseRanges, '/'.toNat < r.first ∧ ('/'.toNat : Int) < r.first + r.offset := by
  decide +kernel

theorem eq_of_ofNat_eq_slash (h : Char.ofNat n = '/') : n = '/'.toNat := by
  have hn := congrArg Char.toNat h
  rw [Char.ofNat] at hn
  by_cases hv : n.isValidChar
  · rwa [dif_pos hv] at hn
  · rw [dif_neg hv] at hn
    cases hn

/-- Lower case neither makes nor loses a slash: all letters come after it. -/
theorem slash_mem_lowercase_iff {c : Char} : '/' ∈ lowercase c ↔ c = '/' := by
  rw [lowercase]
  split
  next h =>
    subst h
    decide
  next h =>
    split
    next r hr =>
      -- A character with a lower case lies in a range, and so does not come before the slash.
      have hc := List.find?_some hr
      obtain ⟨hfirst, hoffset⟩ :=
        slash_lt_of_mem_lowercaseRanges r (List.mem_of_find?_eq_some hr)
      simp only [CaseRange.contains, Bool.and_eq_true, decide_eq_true_eq] at hc
      constructor
      · intro hs
        have hn := eq_of_ofNat_eq_slash (List.mem_singleton.1 hs).symm
        omega
      · intro hs
        subst hs
        omega
    next => exact List.mem_singleton.trans eq_comm

theorem slash_mem_lowerFirst_iff {s : String} :
    '/' ∈ (lowerFirst s).toList ↔ '/' ∈ s.toList := by
  rw [lowerFirst]
  split
  next h =>
    rw [h]
    rfl
  next c rest h =>
    rw [h, String.toList_ofList, List.mem_append, slash_mem_lowercase_iff, List.mem_cons, eq_comm]

end Text

namespace NamingPolicy

theorem slash_mem_apply_iff (p : NamingPolicy) {name : String} :
    '/' ∈ (p.apply name).toList ↔ '/' ∈ name.toList := by
  rw [apply]
  split
  · exact Text.slash_mem_lowerFirst_iff
  · rfl

/-- A collection has a slash in its name if and only if the type has. -/
theorem slash_mem_typeName_iff (p : NamingPolicy) {name : String} :
    '/' ∈ (p.typeName name).toList ↔ '/' ∈ name.toList := by
  rw [typeName]
  split
  · rw [String.toList_append, List.mem_append, slash_mem_apply_iff]
    exact or_iff_left (by decide)
  · exact p.slash_mem_apply_iff

end NamingPolicy

/-- Where a request is sent: a collection, in an index if there is one. -/
structure Endpoint where
  index : Option String
  collection : String

namespace Endpoint

/-- A name that an index may have. -/
def IsIndex (name : String) : Prop := name ≠ "" ∧ '/' ∉ name.toList

/-- What stands between the first slash of the path and its last word. -/
def text (e : Endpoint) : String :=
  match e.index with
  | some name => name ++ "/" ++ e.collection
  | none => e.collection

/-- A collection of no index whose name is that of an index and of a collection of it. -/
def Spells (e e' : Endpoint) : Prop :=
  e.index = none ∧ ∃ name, e'.index = some name ∧ e.collection = name ++ "/" ++ e'.collection

theorem slash_mem_of_spells (h : Spells e e') : '/' ∈ e.collection.toList := by
  obtain ⟨-, name, -, he⟩ := h
  rw [he, String.toList_append, String.toList_append]
  exact List.mem_append_left _ (List.mem_append_right _ (.head _))

/-- The first slash tells what is before it from what is after it. -/
theorem eq_of_append_slash {as as' bs bs' : List Char} (h : '/' ∉ as) (h' : '/' ∉ as')
    (he : as ++ '/' :: bs = as' ++ '/' :: bs') : as = as' ∧ bs = bs' := by
  induction as generalizing as' with
  | nil =>
    cases as' with
    | nil => exact ⟨rfl, List.tail_eq_of_cons_eq he⟩
    | cons c rest =>
      cases List.head_eq_of_cons_eq he
      exact (h' (.head _)).elim
  | cons c rest ih =>
    cases as' with
    | nil =>
      cases List.head_eq_of_cons_eq he
      exact (h (.head _)).elim
    | cons c' rest' =>
      obtain ⟨hr, hb⟩ := ih (fun hm => h (.tail _ hm)) (fun hm => h' (.tail _ hm))
        (List.tail_eq_of_cons_eq he)
      rw [List.head_eq_of_cons_eq he, hr]
      exact ⟨rfl, hb⟩

theorem append_slash_inj {name name' rest rest' : String} (h : '/' ∉ name.toList)
    (h' : '/' ∉ name'.toList) :
    name ++ "/" ++ rest = name' ++ "/" ++ rest' ↔ name = name' ∧ rest = rest' := by
  constructor
  · intro he
    have hs := congrArg String.toList he
    simp only [String.toList_append, List.append_assoc] at hs
    exact (eq_of_append_slash h h' hs).imp String.toList_inj.1 String.toList_inj.1
  · rintro ⟨rfl, rfl⟩
    rfl

/-- Two endpoints of one text are the same, unless one spells the other. -/
theorem text_eq_iff {e e' : Endpoint} (h : ∀ name ∈ e.index, IsIndex name)
    (h' : ∀ name ∈ e'.index, IsIndex name) :
    e.text = e'.text ↔ e = e' ∨ e.Spells e' ∨ e'.Spells e := by
  obtain ⟨index, c⟩ := e
  obtain ⟨index', c'⟩ := e'
  cases index with
  | none =>
    cases index' with
    | none => simp [text, Spells]
    | some name' => simp [text, Spells]
  | some name =>
    cases index' with
    | none => simp [text, Spells, eq_comm]
    | some name' =>
      have hinj : name ++ "/" ++ c = name' ++ "/" ++ c' ↔ name = name' ∧ c = c' :=
        append_slash_inj (h name rfl).2 (h' name' rfl).2
      simp [text, Spells, hinj]

end Endpoint

theorem Request.path_eq {index : Option String} (r : Request)
    (h : ∀ name ∈ index, Endpoint.IsIndex name) :
    r.path index = "/" ++ Endpoint.text ⟨index, r.docType⟩ ++ "/_search" := by
  cases index with
  | none => rfl
  | some name =>
    rw [path, if_neg (h name rfl).1, Endpoint.text]
    simp only [String.append_assoc]

theorem Draft.finish_docType (h : finish d source docType = .ok p) :
    p.request.docType = docType := by
  rw [finish] at h
  split at h
  · cases h
    rfl
  · cases h
    rfl
  next terminal g hd =>
    cases terminal with
    | first | count | any =>
      cases h
      rfl
  · cases h
  · cases h
    rfl

theorem Query.docType_of_plan {q : Query} {names : FieldNames} (h : q.plan names = .ok p) :
    p.request.docType = names.naming.type q.docType := by
  obtain ⟨-, d, -, hd⟩ := plan_eq_ok_iff.1 h
  exact Draft.finish_docType hd

theorem Plan.docType_withDefaultSize (p : Plan) (size : Option Nat) :
    (p.withDefaultSize size).request.docType = p.request.docType := by
  rw [withDefaultSize]
  split <;> rfl

/-- An index that is accepted has a name without a slash. -/
theorem Settings.isIndex_of_validate {s : Settings} (h : s.validate = .ok ())
    (hn : name ∈ s.index) : Endpoint.IsIndex name := by
  rw [validate, hn] at h
  split at h
  · cases h
  dsimp only at h
  split at h
  · cases h
  next hv =>
    rw [String.isEmpty_iff] at hv
    exact not_or.1 hv

namespace Planner

/-- Where the request of a plan is sent. -/
def endpoint (p : Planner) (plan : Plan) : Endpoint := ⟨p.settings.index, plan.request.docType⟩

theorem ofSettings_eq_ok_iff : ofSettings s = .ok p ↔
    s.validate = .ok () ∧ p = ⟨s, .standard s.naming⟩ := by
  rw [ofSettings, bind_eq_ok_iff]
  constructor
  · rintro ⟨u, hs, he⟩
    cases he
    exact ⟨hs, rfl⟩
  · rintro ⟨hs, rfl⟩
    exact ⟨(), hs, rfl⟩

theorem settings_of_ofSettings (hp : ofSettings s = .ok p) : p.settings = s := by
  obtain ⟨-, rfl⟩ := ofSettings_eq_ok_iff.1 hp
  rfl

theorem isIndex_of_ofSettings (hp : ofSettings s = .ok p) (hn : name ∈ p.settings.index) :
    Endpoint.IsIndex name := by
  obtain ⟨hs, rfl⟩ := ofSettings_eq_ok_iff.1 hp
  exact Settings.isIndex_of_validate hs hn

theorem path_eq (hp : ofSettings s = .ok p) (plan : Plan) :
    p.path plan = "/" ++ (p.endpoint plan).text ++ "/_search" :=
  plan.request.path_eq fun _ hn => isIndex_of_ofSettings hp hn

theorem docType_of_plan {q : Query} {plan : Plan} (hp : ofSettings s = .ok p)
    (h : p.plan q = .ok plan) : plan.request.docType = s.naming.typeName q.docType := by
  obtain ⟨-, rfl⟩ := ofSettings_eq_ok_iff.1 hp
  obtain ⟨plan₀, h₀, he⟩ := bind_eq_ok_iff.1 h
  cases he
  rw [Plan.docType_withDefaultSize]
  exact Query.docType_of_plan h₀

/-- A type without a slash in its name names no index. -/
theorem not_spells {q : Query} {plan : Plan} (hp : ofSettings s = .ok p) (h : p.plan q = .ok plan)
    (hs : s.index = none → '/' ∉ q.docType.toList) (e : Endpoint) :
    ¬ (p.endpoint plan).Spells e := by
  intro hspells
  have hmem := Endpoint.slash_mem_of_spells hspells
  have hnone := hspells.1
  rw [endpoint, docType_of_plan hp h, s.naming.slash_mem_typeName_iff] at hmem
  rw [endpoint, settings_of_ofSettings hp] at hnone
  exact hs hnone hmem

theorem path_eq_path_iff {plan plan' : Plan} (hp : ofSettings s = .ok p)
    (hp' : ofSettings s' = .ok p') : p.path plan = p'.path plan' ↔
      p.endpoint plan = p'.endpoint plan' ∨ (p.endpoint plan).Spells (p'.endpoint plan') ∨
        (p'.endpoint plan').Spells (p.endpoint plan) := by
  rw [path_eq hp, path_eq hp', String.append_left_inj, String.append_right_inj]
  exact Endpoint.text_eq_iff (fun _ => isIndex_of_ofSettings hp)
    (fun _ => isIndex_of_ofSettings hp')

/-- A path tells the index and the collection, but for a collection of no index that spells both.
That takes a type with a slash in its name. -/
theorem path_tells_endpoint {q q' : Query} {plan plan' : Plan} (hp : ofSettings s = .ok p)
    (hp' : ofSettings s' = .ok p') (h : p.plan q = .ok plan) (h' : p'.plan q' = .ok plan') :
    (p.path plan = p'.path plan' ↔ p.endpoint plan = p'.endpoint plan' ∨
      (p.endpoint plan).Spells (p'.endpoint plan') ∨
        (p'.endpoint plan').Spells (p.endpoint plan)) ∧
    ((s.index = none → '/' ∉ q.docType.toList) → (s'.index = none → '/' ∉ q'.docType.toList) →
      p.path plan = p'.path plan' →
        s.index = s'.index ∧ plan.request.docType = plan'.request.docType) := by
  constructor
  · exact path_eq_path_iff hp hp'
  · intro hs hs' he
    rcases (path_eq_path_iff hp hp').1 he with heq | hspells | hspells
    · rw [endpoint, endpoint, settings_of_ofSettings hp, settings_of_ofSettings hp'] at heq
      exact Endpoint.mk.inj heq
    · exact (not_spells hp h hs _ hspells).elim
    · exact (not_spells hp' h' hs' _ hspells).elim

end Planner

def Settings.fleet : Settings := { index := some "fleet" }

/-- Names are taken as they are. -/
def Settings.verbatim : Settings := { naming := ⟨false, false⟩ }

theorem Planner.path_tells_endpoint_robots :
    ∃ p p' p'' plan plan' plan'', ofSettings {} = .ok p ∧ ofSettings .verbatim = .ok p' ∧
      ofSettings .fleet = .ok p'' ∧ p.plan (.source "Robot") = .ok plan ∧
      p'.plan (.source "robots") = .ok plan' ∧ p''.plan (.source "Robot") = .ok plan'' ∧
      p.path plan = p'.path plan' ∧ plan.request.docType = plan'.request.docType ∧
      p.path plan ≠ p''.path plan'' := by
  have hp : ofSettings {} = .ok ⟨{}, .standard {}⟩ := rfl
  have hp' : ofSettings .verbatim = .ok ⟨.verbatim, .standard ⟨false, false⟩⟩ := rfl
  have hp'' : ofSettings .fleet = .ok ⟨.fleet, .standard {}⟩ := rfl
  have hr : '/' ∉ "Robot".toList := by decide
  have hr' : '/' ∉ "robots".toList := by decide
  refine ⟨_, _, _, _, _, _, hp, hp', hp'', rfl, rfl, rfl, ?_, ?_, ?_⟩
  · decide
  · have h := path_tells_endpoint hp hp' (rfl : Planner.plan _ (.source "Robot") = .ok _)
      (rfl : Planner.plan _ (.source "robots") = .ok _)
    exact (h.2 (fun _ => hr) (fun _ => hr') (by decide)).2
  · intro he
    have h := path_tells_endpoint hp hp'' (rfl : Planner.plan _ (.source "Robot") = .ok _)
      (rfl : Planner.plan _ (.source "Robot") = .ok _)
    cases (h.2 (fun _ => hr) (fun _ => hr) he).1

/-- The robots of the index `fleet` and a collection of no index have one path. -/
theorem Planner.path_of_slash_in_type : ∃ p p' plan plan',
    ofSettings .fleet = .ok p ∧ ofSettings {} = .ok p' ∧ p.plan (.source "Robot") = .ok plan ∧
      p'.plan (.source "fleet/robot") = .ok plan' ∧ p.path plan = p'.path plan' ∧
        p.settings.index ≠ p'.settings.index ∧
        plan.request.docType ≠ plan'.request.docType := by
  refine ⟨_, _, _, _, rfl, rfl, rfl, rfl, ?_, ?_, ?_⟩ <;> decide

end SearchQuery
