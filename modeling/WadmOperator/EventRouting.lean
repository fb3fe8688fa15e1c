import WadmOperator.Foundation.Subjects
import WadmOperator.WatcherTasks

/-!
# Which events reach an event task

The stream of the operator mirrors the events of wadm under its own subjects, and the
consumer of a lattice asks for the subjects with the lattice in their second token. The
topic of wadm is a parameter. NATS refuses a durable consumer whose name has a dot, a
wildcard or white space in it, and the name ends with the lattice.
-/

namespace WadmOperator
namespace EventRouting

open Subjects Transition ServiceWatcher

def OPERATOR_STREAM_SUBJECT : String := "wadm_operator_events.*.>"

def replaceFirst (c : Char) (new : List Char) : List Char → List Char
  | [] => []
  | x :: xs => if x = c then new ++ xs else x :: replaceFirst c new xs

/-- `replacen` for one occurrence of a character. -/
def replacen (s : String) (c : Char) (new : String) : String :=
  String.ofList (replaceFirst c new.toList s.toList)

def mirrored (eventsTopic : String) (subject : TokenList) : Option TokenList :=
  transform (tokens eventsTopic) (tokens (replacen OPERATOR_STREAM_SUBJECT '*' (wildcard 1))) subject

def receives (c : Consumer) (subject : TokenList) : Bool := accepts (tokens c.filterSubject) subject

def validName (name : String) : Bool :=
  !name.isEmpty && name.toList.all fun c =>
    !c.isWhitespace && c != '.' && c != '*' && c != '>'

theorem replacen_stream (new : String) :
    replacen OPERATOR_STREAM_SUBJECT '*' new = "wadm_operator_events." ++ new ++ ".>" := by
  rw [replacen, ← String.toList_inj, String.toList_ofList]
  simp [OPERATOR_STREAM_SUBJECT, replaceFirst]

theorem filterSubject_eq (client : NatsClient) (latticeId : String) :
    (Watcher.consumerFor client latticeId).filterSubject =
      replacen OPERATOR_STREAM_SUBJECT '*' latticeId :=
  (replacen_stream latticeId).symm

theorem tokens_stream (new : String) :
    tokens (replacen OPERATOR_STREAM_SUBJECT '*' new) =
      "wadm_operator_events" :: (tokens new ++ [">"]) := by
  have hparts : "wadm_operator_events." ++ new ++ ".>" =
      "wadm_operator_events" ++ "." ++ new ++ "." ++ ">" := by
    simp [← String.toList_inj]
  rw [replacen_stream, hparts, tokens_append, tokens_append,
    tokens_plain (s := "wadm_operator_events") (by decide), tokens_plain (s := ">") (by decide)]
  rfl

theorem plain_of_validName {client : NatsClient} {latticeId : String}
    (h : validName (Watcher.consumerFor client latticeId).durableName = true) :
    '.' ∉ latticeId.toList ∧ Literal latticeId := by
  have hall : ∀ c ∈ latticeId.toList, c ≠ '.' ∧ c ≠ '*' ∧ c ≠ '>' := by
    intro c hc
    simp only [validName, Watcher.consumerFor, Bool.and_eq_true, List.all_eq_true,
      String.toList_append, List.mem_append, bne_iff_ne] at h
    obtain ⟨⟨⟨-, hdot⟩, hstar⟩, hangle⟩ := h.2 c (.inr hc)
    exact ⟨hdot, hstar, hangle⟩
  refine ⟨fun hin => (hall _ hin).1 rfl, fun heq => ?_, fun heq => ?_⟩
  · exact (hall '*' (by rw [heq]; decide)).2.1 rfl
  · exact (hall '>' (by rw [heq]; decide)).2.2 rfl

theorem receives_iff {client : NatsClient} {latticeId : String}
    (h : validName (Watcher.consumerFor client latticeId).durableName = true)
    (subject : TokenList) : receives (Watcher.consumerFor client latticeId) subject = true ↔
      ∃ rest, rest ≠ [] ∧ subject = "wadm_operator_events" :: latticeId :: rest := by
  obtain ⟨hdot, hliteral⟩ := plain_of_validName h
  have hstem : ∀ token ∈ ["wadm_operator_events", latticeId], Literal token := by
    intro token hin
    simp only [List.mem_cons, List.not_mem_nil, or_false] at hin
    rcases hin with rfl | rfl
    · decide
    · exact hliteral
  rw [receives, filterSubject_eq, tokens_stream, tokens_plain hdot]
  exact accepts_stem_iff hstem subject

theorem mirrored_event {eventsTopic : String} {stem : TokenList}
    (htopic : tokens eventsTopic = stem ++ ["*", ">"]) (hstem : ∀ token ∈ stem, Literal token)
    (latticeId : String) {name : TokenList} (hname : name ≠ []) :
    mirrored eventsTopic (stem ++ latticeId :: name) =
      some ("wadm_operator_events" :: latticeId :: name) := by
  have hwildcard : tokens (wildcard 1) = [wildcard 1] := tokens_plain (by decide)
  have hcaptured : captures (stem ++ ["*", ">"]) (stem ++ latticeId :: name) =
      some ([latticeId], name) := by
    rw [captures_literals hstem]
    cases name with
    | nil => exact absurd rfl hname
    | cons first name => simp [captures]
  have hstream : "wadm_operator_events" ≠ wildcard 1 := by decide
  have hangle : wildcard 1 ≠ ">" := by decide
  have hname' : fill [latticeId] name "wadm_operator_events" = ["wadm_operator_events"] := by
    simp [fill, hstream]
  have hlattice : fill [latticeId] name (wildcard 1) = [latticeId] := by
    simp [fill, hangle]
  have hrest : fill [latticeId] name ">" = name := if_pos rfl
  rw [mirrored, htopic, tokens_stream, hwildcard, transform, hcaptured]
  simp [hname', hlattice, hrest]

def Accepted (t : EventTask) : Prop :=
  ∃ client, t.watcher.consumer = Watcher.consumerFor client t.watcher.latticeId ∧
    validName t.watcher.consumer.durableName = true

def AllowedNames (ls : List ServiceWatcher.Label) : Prop :=
  ∀ client ns latticeId, .watch client ns latticeId true ∈ ls →
    validName (Watcher.consumerFor client latticeId).durableName = true

theorem step_accepted {s u : ServiceWatcher} {l : ServiceWatcher.Label}
    (h : ∀ t ∈ s.tasks, Accepted t) (hstep : ServiceWatcher.step s l = some u)
    (hallowed : AllowedNames [l]) : ∀ t ∈ u.tasks, Accepted t := by
  cases step_cases hstep with
  | @watch client ns latticeId created _ =>
    unfold ServiceWatcher.watch
    split
    · exact h
    · cases created with
      | false => exact h
      | true =>
        intro t ht
        rcases List.mem_append.mp ht with ht | ht
        · exact h t ht
        · rw [List.mem_singleton.mp ht]
          exact ⟨client, rfl, hallowed client ns latticeId List.mem_cons_self⟩
  | @stopWatch latticeId ns _ =>
    have hsame : (s.stopWatch latticeId ns).1.tasks = s.tasks := by
      unfold ServiceWatcher.stopWatch
      split
      · rw [(send_frame _ _).2.2.1, leave]
        split <;> rfl
      · rfl
    rw [hsame]
    exact h
  | task hstep =>
    intro t ht
    obtain ⟨k, hk⟩ := List.mem_iff_getElem?.mp ht
    obtain ⟨old, hold, hwatcher⟩ := hstep.task_watcher hk
    obtain ⟨client, hconsumer, hvalid⟩ := h old (List.mem_of_getElem? hold)
    rw [Accepted, hwatcher]
    exact ⟨client, hconsumer, hvalid⟩
  | rest _ _ ht _ _ =>
    rw [ht]
    exact h

theorem run_accepted {s u : ServiceWatcher} {ls : List ServiceWatcher.Label}
    (hrun : Run ServiceWatcher.step s ls u) (hallowed : AllowedNames ls)
    (h : ∀ t ∈ s.tasks, Accepted t) : ∀ t ∈ u.tasks, Accepted t := by
  induction hrun with
  | nil => exact h
  | cons hl _ ih =>
    refine ih (fun client ns latticeId hin => hallowed client ns latticeId
      (List.mem_cons_of_mem _ hin)) (step_accepted h hl ?_)
    intro client ns latticeId hin
    exact hallowed client ns latticeId (List.mem_singleton.mp hin ▸ List.mem_cons_self)

/-- In every run of the service watcher, an event of wadm goes to the event tasks of its own
lattice, whatever the lattices are called, and to no other one; on the work queue no subject at
all belongs to two lattices. -/
theorem run_events_routed {eventsTopic : String} {stem : TokenList}
    (htopic : tokens eventsTopic = stem ++ ["*", ">"]) (hstem : ∀ token ∈ stem, Literal token)
    {ls : List ServiceWatcher.Label} {s : ServiceWatcher} (hrun : Run ServiceWatcher.step {} ls s)
    (hallowed : AllowedNames ls) :
    (∀ latticeId name, name ≠ [] → ∃ stored,
      mirrored eventsTopic (stem ++ latticeId :: name) = some stored ∧ ∀ t ∈ s.tasks,
        receives t.watcher.consumer stored = true ↔ t.watcher.latticeId = latticeId) ∧
    ∀ t ∈ s.tasks, ∀ t' ∈ s.tasks, ∀ subject, receives t.watcher.consumer subject = true →
      receives t'.watcher.consumer subject = true → t.watcher.latticeId = t'.watcher.latticeId := by
  have haccepted := run_accepted hrun hallowed fun t ht => by cases ht
  constructor
  · intro latticeId name hname
    refine ⟨_, mirrored_event htopic hstem latticeId hname, fun t ht => ?_⟩
    obtain ⟨client, hconsumer, hvalid⟩ := haccepted t ht
    rw [hconsumer] at hvalid ⊢
    rw [receives_iff hvalid]
    constructor
    · intro hall
      obtain ⟨rest, -, heq⟩ := hall
      exact (List.cons.inj (List.cons.inj heq).2).1.symm
    · intro heq
      exact ⟨name, hname, by rw [heq]⟩
  · intro t ht t' ht' subject hsubject hsubject'
    obtain ⟨client, hconsumer, hvalid⟩ := haccepted t ht
    obtain ⟨client', hconsumer', hvalid'⟩ := haccepted t' ht'
    rw [hconsumer] at hvalid hsubject
    rw [hconsumer'] at hvalid' hsubject'
    obtain ⟨rest, -, heq⟩ := (receives_iff hvalid subject).mp hsubject
    obtain ⟨rest', -, heq'⟩ := (receives_iff hvalid' subject).mp hsubject'
    exact (List.cons.inj (List.cons.inj (heq.symm.trans heq')).2).1

def twoLattices : List ServiceWatcher.Label :=
  [.watch .sample "default" "lattice-a" true, .watch .sample "default" "lattice-b" true]

def watching : ServiceWatcher := (exec ServiceWatcher.step {} twoLattices).getD {}

theorem run_events_routed_two : ∃ stored,
    mirrored "wadm.evt.*.>" ["wadm", "evt", "lattice-a", "manifest_published"] = some stored ∧
      watching.tasks.map (fun t => receives t.watcher.consumer stored) = [true, false] := by
  have hrun : Run ServiceWatcher.step {} twoLattices watching := run_of_exec rfl
  have htopic : tokens "wadm.evt.*.>" = ["wadm", "evt"] ++ ["*", ">"] := by decide
  have hallowed : AllowedNames twoLattices := by
    intro client ns latticeId hin
    simp only [twoLattices, List.mem_cons, ServiceWatcher.Label.watch.injEq, List.not_mem_nil,
      or_false] at hin
    rcases hin with ⟨-, -, rfl, -⟩ | ⟨-, -, rfl, -⟩
    · exact (by decide : validName ("wadm_operator_service-" ++ "lattice-a") = true)
    · exact (by decide : validName ("wadm_operator_service-" ++ "lattice-b") = true)
  obtain ⟨hrouted, -⟩ := run_events_routed htopic (by decide) hrun hallowed
  obtain ⟨stored, hstored, hiff⟩ := hrouted "lattice-a" ["manifest_published"] (by simp)
  refine ⟨stored, hstored, ?_⟩
  have hfirst := (hiff _ (List.mem_of_getElem? (i := 0) rfl)).mpr rfl
  have hsecond := mt (hiff _ (List.mem_of_getElem? (i := 1) rfl)).mp (by decide)
  exact congrArg₂ (fun a b => [a, b]) hfirst (Bool.eq_false_iff.mpr hsecond)

end EventRouting
end WadmOperator
