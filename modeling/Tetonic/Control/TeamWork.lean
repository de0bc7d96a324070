import Tetonic.Control.Attenuation
import Tetonic.Control.Work
import Tetonic.Lib.Text
set_option autoImplicit false

/-! Work that events and huddles bring to a team. The item of an event is found by its source,
cursor key and id joined with slashes; the items of an accepted huddle, at a retry, by what their
ids begin with. -/

namespace Tetonic.Control
open Lib

structure ActivateWorkCursor where
  (actor org team source cursorKey eventId workTitle : String)

structure WorkActivationCursor where
  (orgId teamId source cursorKey lastEventId : String)
  version : Int
  deriving DecidableEq

structure HuddleProposal where
  (orgId teamId huddleId : String)
  proposalVersion : Int
  requestId : String
  workTitles : List String
  deriving DecidableEq

inductive PlanStatus where
  | drafting | draft | agreed
  deriving DecidableEq

/-- A revision of the plan for a work item; the content is its JSON. -/
structure HuddlePlan where
  workId : String
  (revision briefRevision : Int)
  (requestId generationId : String)
  status : PlanStatus
  content : Option String
  (createdBy generationInput : String)
  (agreedBy agreementId : Option String)
  deriving DecidableEq

/-- A row of `huddle_proposals`: an accepted list of titles, or a plan with its content as
requested. -/
inductive ProposalRow where
  | accepted (proposal : HuddleProposal)
  | plan (org team : String) (plan : HuddlePlan) (initial : Option String)

/-- The tables of work, with the cursors by organization, team, source and key, and the proposals by
organization, team and request. -/
structure TeamStore extends Store where
  cursors : OrdMap (List String) WorkActivationCursor
  proposals : OrdMap (List String) ProposalRow

/-- Inserts a row of `team_work_items` and reads it back. -/
def TeamStore.createWork (s : TeamStore) (w : TeamWorkItem) :
    Result (TeamWorkItem × TeamStore) := do
  failIf .sqlite (s.works.any fun x => x.orgId = w.orgId && x.teamId = w.teamId &&
    (x.workId = w.workId || x.requestId = w.requestId))
  let t := { s with works := s.works ++ [w] }
  match t.workItem w.orgId w.teamId w.workId with
  | some row => .ok (row, t)
  | none => .error .controlResourceConflict

theorem TeamStore.createWork_eq_ok {s t : TeamStore} {w row : TeamWorkItem}
    (h : s.createWork w = .ok (row, t)) : row = w ∧ t = { s with works := s.works ++ [w] } := by
  simp only [createWork, bind_eq_ok, failIf_eq_ok] at h
  obtain ⟨_, hfree, h⟩ := h
  have hnew : (s.works ++ [w]).find? (fun x => x.orgId = w.orgId && x.teamId = w.teamId &&
      x.workId = w.workId) = some w := by
    rw [List.find?_append, List.find?_eq_none.mpr]
    · simp
    · intro x hx hsame
      refine List.any_eq_false.mp hfree x hx ?_
      simp only [Bool.and_eq_true, Bool.or_eq_true] at hsame ⊢
      exact ⟨hsame.1, .inl hsame.2⟩
  simp only [Store.workItem, hnew, Except.ok.injEq, Prod.mk.injEq] at h
  exact ⟨h.1.symm, h.2.symm⟩

def eventRequest (source cursorKey eventId : String) : String :=
  source ++ "/" ++ cursorKey ++ "/" ++ eventId

namespace ActivateWorkCursor

def slot (c : ActivateWorkCursor) : List String := [c.org, c.team, c.source, c.cursorKey]

def requestId (c : ActivateWorkCursor) : String := eventRequest c.source c.cursorKey c.eventId

def work (c : ActivateWorkCursor) : TeamWorkItem :=
  ⟨c.org, c.team, c.requestId, none, c.workTitle, .opened, c.requestId, none, none, 1⟩

def cursor (c : ActivateWorkCursor) (existing : Option WorkActivationCursor) :
    WorkActivationCursor :=
  ⟨c.org, c.team, c.source, c.cursorKey, c.eventId, (existing.map (·.version)).getD 0 + 1⟩

end ActivateWorkCursor

def TeamStore.item (s : TeamStore) (c : ActivateWorkCursor) : Option TeamWorkItem :=
  s.workItemByRequest c.org c.team c.requestId

def TeamStore.workFor (s : TeamStore) (c : ActivateWorkCursor) :
    Result (TeamWorkItem × TeamStore) :=
  match s.item c with
  | some existing => .ok (existing, s)
  | none => s.createWork c.work

/-- The cursor is on the event already. -/
def TeamStore.cursorOn (s : TeamStore) (c : ActivateWorkCursor) : Option WorkActivationCursor :=
  s.cursors[c.slot]?.filter (·.lastEventId = c.eventId)

def TeamStore.activateFromCursor (s : TeamStore) (E : Surroundings) (c : ActivateWorkCursor) :
    Result (WorkActivationCursor × Option TeamWorkItem × TeamStore) := do
  requireIds E [("source", c.source), ("cursor_key", c.cursorKey), ("event_id", c.eventId)]
  failIf (.invalidControlResource "title") !E.boundedTitle c.workTitle
  failIf (.invalidControlResource "source") (c.source ≠ "event" && c.source ≠ "schedule")
  denyIf !E.teamParticipant c.actor c.org c.team
  match s.cursorOn c with
  | some cursor => .ok (cursor, none, s)
  | none =>
    let (w, t) ← s.workFor c
    let cursor := c.cursor s.cursors[c.slot]?
    .ok (cursor, some w, { t with cursors := t.cursors.insert c.slot cursor })

/-- What an event is told apart by. -/
def ActivateWorkCursor.event (c : ActivateWorkCursor) : List String := c.slot ++ [c.eventId]

abbrev Answers := List (ActivateWorkCursor × Option TeamWorkItem)

/-- The key has no slash, and an event that was processed comes again only while the cursor is on
it. -/
structure Deliverable (past : Answers) (s : TeamStore) (c : ActivateWorkCursor) : Prop where
  key : '/' ∉ c.cursorKey.toList
  again : ∀ d ∈ past, d.1.event = c.event → (s.cursorOn c).isSome = true

/-- Accepted calls, each deliverable, with the items they returned. -/
inductive Deliveries : Answers → TeamStore → Prop
  | start {s : TeamStore} (fresh : s.cursors = ∅) : Deliveries [] s
  | deliver {past : Answers} {s t : TeamStore} {E : Surroundings} {c : ActivateWorkCursor}
      {cursor : WorkActivationCursor} {w : Option TeamWorkItem} (run : Deliveries past s)
      (met : Deliverable past s c) (ok : s.activateFromCursor E c = .ok (cursor, w, t)) :
      Deliveries (past ++ [(c, w)]) t

section
variable {past : Answers} {s t : TeamStore} {c d : ActivateWorkCursor} {w : TeamWorkItem}

theorem TeamStore.workFor_eq_ok (h : s.workFor c = .ok (w, t)) :
    t.item c = some w ∧ t.cursors = s.cursors ∧ ∃ more, t.works = s.works ++ more := by
  unfold TeamStore.workFor at h
  cases hitem : s.item c with
  | some existing =>
    simp only [hitem, Except.ok.injEq, Prod.mk.injEq] at h
    obtain ⟨rfl, rfl⟩ := h
    exact ⟨hitem, rfl, [], by simp⟩
  | none =>
    simp only [hitem] at h
    obtain ⟨rfl, rfl⟩ := TeamStore.createWork_eq_ok h
    refine ⟨?_, rfl, _, rfl⟩
    simp only [item, Store.workItemByRequest] at hitem ⊢
    rw [List.find?_append, hitem]
    simp [ActivateWorkCursor.work]

theorem TeamStore.item_later {more : List TeamWorkItem} (hworks : t.works = s.works ++ more)
    (h : s.item c = some w) : t.item c = some w := by
  simp only [item, Store.workItemByRequest] at h ⊢
  rw [hworks, List.find?_append, h]
  rfl

theorem TeamStore.activateFromCursor_eq_ok {E : Surroundings} {cursor : WorkActivationCursor}
    {w : Option TeamWorkItem} (h : s.activateFromCursor E c = .ok (cursor, w, t)) :
    '/' ∉ c.source.toList ∧ ((s.cursorOn c).isSome = true ∧ w = none ∧ t = s ∨
        s.cursorOn c = none ∧ ∃ x u, w = some x ∧ s.workFor c = .ok (x, u) ∧
          t = { u with cursors := u.cursors.insert c.slot (c.cursor s.cursors[c.slot]?) }) := by
  simp only [activateFromCursor, bind_eq_ok, failIf_eq_ok, denyIf_eq_ok] at h
  obtain ⟨_, _, _, _, _, hsource, _, _, h⟩ := h
  refine ⟨?_, ?_⟩
  · by_cases hs : c.source = "event"
    · simp [hs]
    · have hs : c.source = "schedule" := by simpa [hs] using hsource
      simp [hs]
  · cases hon : s.cursorOn c with
    | some r =>
      rw [hon] at h
      cases h
      exact .inl ⟨rfl, rfl, rfl⟩
    | none =>
      simp only [hon, bind_eq_ok] at h
      obtain ⟨p, hwork, h⟩ := h
      cases h
      exact .inr ⟨rfl, p.1, p.2, rfl, hwork, rfl⟩

theorem ActivateWorkCursor.requestId_inj (hc : '/' ∉ c.source.toList) (hd : '/' ∉ d.source.toList)
    (hck : '/' ∉ c.cursorKey.toList) (hdk : '/' ∉ d.cursorKey.toList)
    (h : c.requestId = d.requestId) :
    c.source = d.source ∧ c.cursorKey = d.cursorKey ∧ c.eventId = d.eventId := by
  have hlist := congrArg String.toList h
  simp only [requestId, eventRequest, String.toList_append, List.append_assoc] at hlist
  obtain ⟨hs, hlist⟩ := Text.append_mark_inj hc hd hlist
  obtain ⟨hk, he⟩ := Text.append_mark_inj hck hdk hlist
  exact ⟨String.toList_inj.mp hs, String.toList_inj.mp hk, String.toList_inj.mp he⟩

/-- Every answered call and cursor has an item, and an item returned is still the one found. -/
structure Answered (past : Answers) (s : TeamStore) : Prop where
  plain : ∀ d ∈ past, '/' ∉ d.1.source.toList ∧ '/' ∉ d.1.cursorKey.toList
  found : ∀ d ∈ past, ∃ w, s.item d.1 = some w ∧ ∀ x, d.2 = some x → x = w
  cursor : ∀ c, (s.cursorOn c).isSome = true → ∃ w, s.item c = some w

theorem Deliveries.answered (run : Deliveries past s) : Answered past s := by
  induction run with
  | start fresh => exact ⟨by simp, by simp, by simp [TeamStore.cursorOn, fresh]⟩
  | @deliver past s t E c r w run met ok ih =>
    obtain ⟨hsource, hstep⟩ := TeamStore.activateFromCursor_eq_ok ok
    have hplain := List.forall_mem_append.mpr ⟨ih.plain, List.forall_mem_singleton.mpr
      (show '/' ∉ (c, w).1.source.toList ∧ _ from ⟨hsource, met.key⟩)⟩
    obtain ⟨hon, rfl, rfl⟩ | ⟨-, x, u, rfl, hwork, rfl⟩ := hstep
    · obtain ⟨x, hx⟩ := ih.cursor c hon
      exact ⟨hplain, List.forall_mem_append.mpr ⟨ih.found, by simp [hx]⟩, ih.cursor⟩
    · obtain ⟨hitem, hcursors, more, hworks⟩ := TeamStore.workFor_eq_ok hwork
      refine ⟨hplain, List.forall_mem_append.mpr ⟨?_, ?_⟩, ?_⟩
      · intro d hd
        obtain ⟨v, hv, h⟩ := ih.found d hd
        exact ⟨v, TeamStore.item_later hworks hv, h⟩
      · exact List.forall_mem_singleton.mpr ⟨x, hitem, fun y hy => (Option.some.inj hy).symm⟩
      · intro c' hon
        obtain ⟨r, hr⟩ := Option.isSome_iff_exists.mp hon
        obtain ⟨hr, hlast⟩ := Option.filter_eq_some_iff.mp hr
        obtain ⟨hslot, rfl⟩ | ⟨-, hr⟩ := OrdMap.get_insert_cases hr
        · have hlast : c.eventId = c'.eventId := of_decide_eq_true hlast
          simp only [ActivateWorkCursor.slot, List.cons.injEq, and_true] at hslot
          refine ⟨x, ?_⟩
          simpa only [TeamStore.item, ActivateWorkCursor.requestId, hslot, hlast] using hitem
        · rw [hcursors] at hr
          obtain ⟨v, hv⟩ := ih.cursor c' (Option.isSome_iff_exists.mpr
            ⟨r, Option.filter_eq_some_iff.mpr ⟨hr, hlast⟩⟩)
          exact ⟨v, TeamStore.item_later hworks hv⟩

/-- Every answered call has an item, the one it returned if it returned one; two calls have one item
exactly for one event; and an event processed before leaves the store, with the cursor, as it is. -/
theorem one_item_per_event (run : Deliveries past s) :
    (∀ d ∈ past, ∃ w, s.item d.1 = some w ∧ ∀ x, d.2 = some x → x = w) ∧
    (∀ d ∈ past, ∀ d' ∈ past, s.item d.1 = s.item d'.1 ↔ d.1.event = d'.1.event) ∧
    ∀ E c cursor w t, Deliverable past s c → s.activateFromCursor E c = .ok (cursor, w, t) →
      (∃ d ∈ past, d.1.event = c.event) → t = s := by
  have hanswered := run.answered
  refine ⟨hanswered.found, fun d hd d' hd' => ⟨fun heq => ?_, fun hevent => ?_⟩, ?_⟩
  · obtain ⟨w, hw, -⟩ := hanswered.found d hd
    have h := List.find?_some hw
    have h' := List.find?_some (heq.symm.trans hw)
    simp only [Bool.and_eq_true, decide_eq_true_eq] at h h'
    have hinj := ActivateWorkCursor.requestId_inj (hanswered.plain d hd).1
      (hanswered.plain d' hd').1
      (hanswered.plain d hd).2 (hanswered.plain d' hd').2 (h.2.symm.trans h'.2)
    simp [ActivateWorkCursor.event, ActivateWorkCursor.slot, hinj, ← h.1.1, ← h.1.2, h'.1.1, h'.1.2]
  · simp only [ActivateWorkCursor.event, ActivateWorkCursor.slot, List.cons_append, List.nil_append,
      List.cons.injEq, and_true] at hevent
    simp only [TeamStore.item, ActivateWorkCursor.requestId, hevent]
  · rintro E c r w t met ok ⟨d, hd, hevent⟩
    obtain ⟨-, ⟨-, -, rfl⟩ | ⟨hnone, -⟩⟩ := TeamStore.activateFromCursor_eq_ok ok
    · rfl
    · have hon := met.again d hd hevent
      rw [hnone] at hon
      cases hon

end

namespace Demo

def teamStore : TeamStore := { Store.empty with cursors := ∅, proposals := ∅ }

def event (key id : String) : ActivateWorkCursor :=
  ⟨"actor", "org", "team", "event", key, id, "title"⟩

def activated (cs : List ActivateWorkCursor) : Result TeamStore :=
  cs.foldlM (fun s c => (s.activateFromCursor surroundings c).map (·.2.2)) teamStore

end Demo

/-- Two events, and the first of them once more: two items, and a call for the second event again
leaves the store as it is. -/
theorem one_item_per_event_again : ∃ (v w : TeamWorkItem) (s : TeamStore),
    Deliveries [(Demo.event "a" "1", some v), (Demo.event "b" "2", some w),
      (Demo.event "a" "1", none)] s ∧
    s.item (Demo.event "a" "1") = some v ∧ s.item (Demo.event "b" "2") = some w ∧ v ≠ w ∧
    ∀ E cursor x t, s.activateFromCursor E (Demo.event "b" "2") = .ok (cursor, x, t) → t = s := by
  have hfirst := Deliveries.deliver (.start rfl) ⟨by decide, by simp⟩
    (show Demo.teamStore.activateFromCursor Demo.surroundings (Demo.event "a" "1") = .ok (_, _, _)
      from rfl)
  have hsecond := Deliveries.deliver hfirst ⟨by decide, by decide +kernel⟩
    (show TeamStore.activateFromCursor _ Demo.surroundings (Demo.event "b" "2") = .ok (_, _, _)
      from rfl)
  have hrun := Deliveries.deliver hsecond ⟨by decide, by decide +kernel⟩
    (show TeamStore.activateFromCursor _ Demo.surroundings (Demo.event "a" "1") = .ok (_, _, _)
      from rfl)
  obtain ⟨hfound, hsame, hagain⟩ := one_item_per_event hrun
  obtain ⟨v, hv, hfirst⟩ := hfound _ List.mem_cons_self
  obtain ⟨w, hw, hsecond⟩ := hfound _ (List.mem_cons_of_mem _ List.mem_cons_self)
  obtain rfl := hfirst _ rfl
  obtain rfl := hsecond _ rfl
  refine ⟨_, _, _, hrun, hv, hw, fun heq => ?_, fun E cursor x t hcall => ?_⟩
  · have hevents := (hsame _ List.mem_cons_self _ (List.mem_cons_of_mem _ List.mem_cons_self)).mp
      (hv.trans (heq ▸ hw.symm))
    revert hevents
    decide
  · refine hagain E _ cursor x t ⟨by decide, fun _ _ _ => by decide +kernel⟩ hcall ?_
    exact ⟨_, List.mem_cons_of_mem _ List.mem_cons_self, rfl⟩

/-- Two events with one item, and a cursor that an older event takes back. -/
theorem events_merged :
    (Demo.activated [Demo.event "a/b" "c", Demo.event "a" "b/c"]).toOption.map
      (fun s => s.works.map (·.workId)) = some ["event/a/b/c"] ∧
    (Demo.activated [Demo.event "a" "1", Demo.event "a" "2", Demo.event "a" "1"]).toOption.bind
      (fun s => s.cursors[(Demo.event "a" "1").slot]?.map (·.lastEventId)) = some "1" := by
  decide +kernel

namespace HuddleProposal

def key (p : HuddleProposal) : List String := [p.orgId, p.teamId, p.requestId]

def base (p : HuddleProposal) : String := "huddle/" ++ p.huddleId

def work (p : HuddleProposal) (index : Nat) (title : String) : TeamWorkItem :=
  ⟨p.orgId, p.teamId, p.base ++ "/" ++ toString (index + 1), none, title, .opened,
    p.requestId ++ "/" ++ toString (index + 1), none, none, 1⟩

def works (p : HuddleProposal) : List TeamWorkItem := p.workTitles.mapIdx p.work

/-- The items of the team whose ids begin as the huddle's do. -/
def listed (p : HuddleProposal) (s : TeamStore) : List TeamWorkItem :=
  s.works.filter fun w => w.orgId = p.orgId && w.teamId = p.teamId &&
    p.base.toList.isPrefixOf w.workId.toList

end HuddleProposal

def ProposalRow.isPlanOf (p : HuddleProposal) : ProposalRow → Bool
  | .plan org team q _ => org = p.orgId && team = p.teamId && q.workId = p.huddleId
  | .accepted _ => false

def ProposalRow.isVersionOf (p : HuddleProposal) : ProposalRow → Bool
  | .plan _ _ _ _ => false
  | .accepted q => q.orgId = p.orgId && q.teamId = p.teamId && q.huddleId = p.huddleId &&
    q.proposalVersion = p.proposalVersion

def ProposalRow.repeats (p : HuddleProposal) : ProposalRow → Bool
  | .plan _ _ _ _ => false
  | .accepted q => q.workTitles = p.workTitles

def TeamStore.createAll (s : TeamStore) : List TeamWorkItem → Result (List TeamWorkItem × TeamStore)
  | [] => .ok ([], s)
  | w :: ws => do
    let (row, s) ← s.createWork w
    let (rows, s) ← s.createAll ws
    .ok (row :: rows, s)

def TeamStore.acceptHuddleProposal (s : TeamStore) (E : Surroundings) (actor : String)
    (p : HuddleProposal) : Result (List TeamWorkItem × TeamStore) := do
  requireIds E [("org_id", p.orgId), ("team_id", p.teamId), ("huddle_id", p.huddleId),
    ("request_id", p.requestId)]
  failIf (.invalidControlResource "work_titles") (p.workTitles.isEmpty || p.workTitles.length > 32)
  failIf (.invalidControlResource "title") (p.workTitles.any (!E.boundedTitle ·))
  denyIf !E.teamParticipant actor p.orgId p.teamId
  failIf .controlResourceConflict (s.proposals.anyValue (·.isPlanOf p))
  match s.proposals[p.key]? with
  | some row =>
    failIf .controlResourceConflict !row.repeats p
    .ok (p.listed s, s)
  | none =>
    failIf .sqlite (s.proposals.anyValue (·.isVersionOf p))
    { s with proposals := s.proposals.insert p.key (.accepted p) }.createAll p.works

/-- Later tables: work items keep their ids, whatever else of them changes, and an accepted proposal
stays. -/
structure TeamStore.Precedes (s t : TeamStore) : Prop where
  works : ∀ w ∈ s.works, ∃ v ∈ t.works, v.orgId = w.orgId ∧ v.teamId = w.teamId ∧
    v.workId = w.workId
  proposals : ∀ (key : List String) (p : HuddleProposal), s.proposals[key]? = some (.accepted p) →
    t.proposals[key]? = some (.accepted p)

theorem TeamStore.createAll_eq_ok {ws rows : List TeamWorkItem} {s t : TeamStore}
    (h : s.createAll ws = .ok (rows, t)) : rows = ws ∧ t = { s with works := s.works ++ ws } := by
  induction ws generalizing s rows with
  | nil =>
    cases h
    simp
  | cons w ws ih =>
    simp only [createAll, bind_eq_ok] at h
    obtain ⟨a, hw, b, hws, h⟩ := h
    cases h
    obtain ⟨hrow, hs⟩ := TeamStore.createWork_eq_ok hw
    obtain ⟨hrows, ht⟩ := ih hws
    rw [ht, hs, hrow, hrows]
    simp

/-- A retry by `actor'` in a later store returns the ids that the first acceptance created, and no
others, exactly if they take part in the team, no structured plan has come under the huddle's id,
and no other item of the team has an id that begins with `huddle/` and the huddle's id. -/
theorem acceptance_retry_exact_iff {s t u : TeamStore} {E E' : Surroundings} {actor actor' : String}
    {p : HuddleProposal} {created : List TeamWorkItem} (first : s.proposals[p.key]? = none)
    (ok : s.acceptHuddleProposal E actor p = .ok (created, t)) (later : t.Precedes u)
    (ids : E'.boundedId = E.boundedId) (titles : E'.boundedTitle = E.boundedTitle) :
    (∃ items, u.acceptHuddleProposal E' actor' p = .ok (items, u) ∧
      ∀ id, id ∈ items.map (·.workId) ↔ id ∈ created.map (·.workId)) ↔
    E'.teamParticipant actor' p.orgId p.teamId = true ∧
      u.proposals.anyValue (·.isPlanOf p) = false ∧
      ∀ w ∈ u.works, w.orgId = p.orgId → w.teamId = p.teamId →
        p.base.toList <+: w.workId.toList → w.workId ∈ p.works.map (·.workId) := by
  simp only [TeamStore.acceptHuddleProposal, bind_eq_ok, failIf_eq_ok, denyIf_eq_ok, first] at ok
  obtain ⟨_, hids, _, hcount, _, htitles, _, _, _, _, _, _, ok⟩ := ok
  obtain ⟨rfl, rfl⟩ := TeamStore.createAll_eq_ok ok
  have hrow := later.proposals p.key p (OrdMap.get_insert_self _ _ _)
  have hids' : requireIds E' [("org_id", p.orgId), ("team_id", p.teamId), ("huddle_id", p.huddleId),
      ("request_id", p.requestId)] = .ok () := by
    simpa only [requireIds, ids] using hids
  have hretry : ∀ items, u.acceptHuddleProposal E' actor' p = .ok (items, u) ↔
      E'.teamParticipant actor' p.orgId p.teamId = true ∧
        u.proposals.anyValue (·.isPlanOf p) = false ∧ p.listed u = items := by
    intro items
    simp [TeamStore.acceptHuddleProposal, bind_eq_ok, hids', titles, hcount, htitles, hrow,
      ProposalRow.repeats]
  simp only [hretry]
  constructor
  · rintro ⟨items, ⟨hpart, hplan, rfl⟩, hsame⟩
    refine ⟨hpart, hplan, fun w hw horg hteam hbase => ?_⟩
    refine (hsame w.workId).mp (List.mem_map_of_mem (List.mem_filter.mpr ⟨hw, ?_⟩))
    simp [horg, hteam, hbase]
  · rintro ⟨hpart, hplan, hothers⟩
    refine ⟨p.listed u, ⟨hpart, hplan, rfl⟩, fun id => ⟨fun h => ?_, fun h => ?_⟩⟩
    · obtain ⟨w, hw, rfl⟩ := List.mem_map.mp h
      obtain ⟨hw, hof⟩ := List.mem_filter.mp hw
      simp only [Bool.and_eq_true, decide_eq_true_eq, List.isPrefixOf_iff_prefix] at hof
      exact hothers w hw hof.1.1 hof.1.2 hof.2
    · obtain ⟨w, hw, rfl⟩ := List.mem_map.mp h
      obtain ⟨v, hv, horg, hteam, hid⟩ := later.works w (List.mem_append_right _ hw)
      obtain ⟨i, hi, rfl⟩ := List.mem_mapIdx.mp hw
      refine List.mem_map.mpr ⟨v, List.mem_filter.mpr ⟨hv, ?_⟩, hid⟩
      simp [horg, hteam, hid, HuddleProposal.work, List.append_assoc]

def Demo.huddle (id request : String) : HuddleProposal := ⟨"org", "team", id, 1, request, ["title"]⟩

def Demo.accepted : TeamStore := { teamStore with
  works := (huddle "a" "r").works
  proposals := Std.ExtTreeMap.empty.insert (huddle "a" "r").key (.accepted (huddle "a" "r")) }

theorem acceptance_retry_exact_iff_alone : ∃ items,
    Demo.accepted.acceptHuddleProposal Demo.surroundings "actor" (Demo.huddle "a" "r") =
      .ok (items, Demo.accepted) ∧
    ∀ id, id ∈ items.map (·.workId) ↔ id ∈ (Demo.huddle "a" "r").works.map (·.workId) :=
  (acceptance_retry_exact_iff rfl
    (show Demo.teamStore.acceptHuddleProposal Demo.surroundings "actor" _ = .ok
      (_, Demo.accepted) from rfl)
    ⟨fun w hw => ⟨w, hw, rfl, rfl, rfl⟩, fun _ _ h => h⟩ rfl rfl).mpr
    ⟨rfl, by decide +kernel, fun w hw _ _ _ => List.mem_map_of_mem hw⟩

/-- The retry of huddle `a` returns the item of huddle `ab` too. -/
theorem retry_lists_other_huddle :
    (do
      let (created, s) ← Demo.teamStore.acceptHuddleProposal Demo.surroundings "actor"
        (Demo.huddle "a" "r")
      let (_, s) ← s.acceptHuddleProposal Demo.surroundings "actor" (Demo.huddle "ab" "r2")
      let (items, _) ← s.acceptHuddleProposal Demo.surroundings "actor" (Demo.huddle "a" "r")
      .ok (created.map (·.workId), items.map (·.workId)) :
        Result (List String × List String)).toOption =
    some (["huddle/a/1"], ["huddle/a/1", "huddle/ab/1"]) := by
  decide +kernel

end Tetonic.Control
