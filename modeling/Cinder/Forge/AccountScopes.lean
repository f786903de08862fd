import Cinder.Forge.SubmissionOutbox
import Cinder.Streams.DecimalTexts
import Cinder.Streams.UrlPaths
set_option autoImplicit false

namespace Cinder.Forge
open Cinder.Host Cinder.Storage Cinder.Programs Cinder.Programs.Program Cinder.Programs.Protocol
  Cinder.Streams

structure Account where
  baseUrl : String
  userId : String
  deriving DecidableEq, Repr

def scopeStart : List Char := "student:".toList

def classroomScope (baseUrl userId : String) : String :=
  String.ofList (scopeStart ++ (encodeURIComponent baseUrl.toList ++ ':' ::
    (userId.toList ++ [':'])))

def Account.scope (account : Account) : String := classroomScope account.baseUrl account.userId

example : (Account.scope ⟨"http://h:1", "u1"⟩) = "student:http%3A%2F%2Fh%3A1:u1:" := by decide

inductive CacheName where
  | classrooms
  | assignments
  | submissions
  | tree
  | liveSession
  deriving DecidableEq, Repr

def CacheName.text : CacheName → String
  | classrooms => "classrooms"
  | assignments => "assignments"
  | submissions => "submissions"
  | tree => "tree"
  | liveSession => "live-session"

def classroomCacheKey (scope : String) (name : CacheName) : String :=
  scope ++ "cache:" ++ name.text

/-- Without a colon, an id ends where the next part of a key begins. -/
def Account.Plain (account : Account) : Prop := ':' ∉ account.userId.toList

instance (account : Account) : Decidable account.Plain := inferInstanceAs (Decidable (_ ∉ _))

section Keys

variable {account account' : Account}

theorem eq_of_starts_with_scope {rest : List Char} (h : account.Plain) (h' : account'.Plain)
    (hstart : account'.scope.toList <+: account.scope.toList ++ rest) :
    account' = account := by
  obtain ⟨t, ht⟩ := hstart
  simp only [Account.scope, classroomScope, String.toList_ofList, List.append_assoc,
    List.cons_append, List.nil_append, List.append_cancel_left_eq] at ht
  have hsplit := congrArg (splitOnce ':') ht
  rw [splitOnce_append (colon_notMem_encodeURIComponent _),
    splitOnce_append (colon_notMem_encodeURIComponent _)] at hsplit
  obtain ⟨hurl, hrest⟩ := Prod.mk.inj (Option.some.inj hsplit)
  have hsplit' := congrArg (splitOnce ':') hrest
  rw [splitOnce_append h', splitOnce_append h] at hsplit'
  obtain ⟨hid, -⟩ := Prod.mk.inj (Option.some.inj hsplit')
  obtain ⟨baseUrl, userId⟩ := account
  obtain ⟨baseUrl', userId'⟩ := account'
  rw [Account.mk.injEq]
  exact ⟨String.toList_inj.mp (encodeURIComponent_inj hurl), String.toList_inj.mp hid⟩

theorem belongs_append (scope s : String) : belongsToClassroomScope (scope ++ s) scope = true := by
  rw [belongsToClassroomScope, List.isPrefixOf_iff_prefix, String.toList_append]
  exact List.prefix_append _ _

theorem not_belongs_append (hne : account ≠ account') (h : account.Plain) (h' : account'.Plain)
    (s : String) :
    belongsToClassroomScope (account.scope ++ s) account'.scope = false := by
  rw [← Bool.not_eq_true, belongsToClassroomScope, List.isPrefixOf_iff_prefix,
    String.toList_append]
  exact fun hstart => hne (eq_of_starts_with_scope h h' hstart).symm

theorem not_belongs_both {key : String} (hne : account ≠ account') (h : account.Plain)
    (h' : account'.Plain) (hkey : belongsToClassroomScope key account'.scope = true) :
    belongsToClassroomScope key account.scope = false := by
  rw [belongsToClassroomScope, List.isPrefixOf_iff_prefix] at hkey
  obtain ⟨s, hs⟩ := hkey
  obtain rfl : account'.scope ++ String.ofList s = key := by
    rw [← String.toList_inj, String.toList_append, String.toList_ofList, hs]
  exact not_belongs_append (Ne.symm hne) h' h _

theorem submissionOutboxKey_eq (scope assignmentId : String) :
    submissionOutboxKey scope assignmentId = scope ++ ("submission:" ++ assignmentId) :=
  String.append_assoc

theorem classroomCacheKey_eq (scope : String) (name : CacheName) :
    classroomCacheKey scope name = scope ++ ("cache:" ++ name.text) := String.append_assoc

end Keys

section Frames

/-- The key that a statement reads its entry by, or changes. -/
def OutboxStatement.key? : OutboxStatement → Option String
  | .getAll => none
  | .put entry => some entry.key
  | .delete key _ => some key
  | .answer key _ _ => some key

def WithinScope (scope : String) (l : OutboxStatement) : Prop :=
  ∀ key ∈ l.key?, belongsToClassroomScope key scope = true

variable {scope : String}

theorem withinScope_getAll : WithinScope scope .getAll := by
  intro key h
  cases h

theorem withinScope_key {l : OutboxStatement} {key : String} (hkey : l.key? = some key)
    (h : belongsToClassroomScope key scope = true) : WithinScope scope l := by
  intro key' hkey'
  rw [hkey] at hkey'
  cases hkey'
  exact h

theorem belongs_submissionOutboxKey (assignmentId : String) :
    belongsToClassroomScope (submissionOutboxKey scope assignmentId) scope = true := by
  rw [submissionOutboxKey_eq]
  exact belongs_append scope _

theorem removeOutbox_within (why : Removal) {key : String}
    (h : belongsToClassroomScope key scope = true) :
    (removeOutbox key why).WritesOnly (WithinScope scope) :=
  writesOnly_execute (withinScope_key rfl h)

theorem submitWork_within {key : String} (h : belongsToClassroomScope key scope = true)
    (payload : SubmissionPayload) (answer : HostAnswer) :
    (submitWork key payload answer).WritesOnly (WithinScope scope) :=
  writesOnly_execute (withinScope_key rfl h)

theorem queueOffline_within {key : String} (h : belongsToClassroomScope key scope = true)
    (payload : SubmissionPayload) (now : String) :
    (queueOffline key payload now).WritesOnly (WithinScope scope) :=
  writesOnly_execute (withinScope_key rfl h)

theorem readQueued_within (message : String) :
    (readQueued scope message).WritesOnly (WithinScope scope) := fun _ => trivial

theorem flushEntries_within (answers : Nat → HostAnswer) (n : Nat) (entries : List OutboxEntry)
    (message : String) :
    (flushEntries scope answers n entries message).WritesOnly (WithinScope scope) := by
  induction entries generalizing n message with
  | nil => trivial
  | cons entry rest ih =>
    unfold flushEntries
    split
    · exact ih n message
    · next payload _ =>
      split
      · next h =>
        refine (submitWork_within h payload (answers n)).bind fun _ => ?_
        split
        · exact (removeOutbox_within .flushed h).bind fun _ => ih (n+1) message
        · trivial
        · split
          · split
            · trivial
            · exact ih (n+1) message
          · exact (removeOutbox_within .flushed h).bind fun _ => ih (n+1) rejectedMessage
      · exact ih n message

theorem sendOrQueue_within (call : SubmitCall) (payload : SubmissionPayload) :
    (sendOrQueue scope call payload).WritesOnly (WithinScope scope) := by
  have hkey : belongsToClassroomScope (submissionOutboxKey scope call.assignmentId) scope = true :=
    belongs_submissionOutboxKey call.assignmentId
  have hqueue : ∀ message, (queueOffline (submissionOutboxKey scope call.assignmentId) payload
      call.now >>= fun _ => readQueued scope message).WritesOnly (WithinScope scope) := by
    intro message
    exact (queueOffline_within hkey payload call.now).bind fun _ => readQueued_within message
  unfold sendOrQueue
  split
  · refine (removeOutbox_within .replaced hkey).bind fun _ =>
      (submitWork_within hkey payload call.answer).bind fun _ => ?_
    split
    · trivial
    · trivial
    · split
      · exact hqueue _
      · trivial
  · exact hqueue _

theorem submit_within (jsonBytes : Json → Nat) (call : SubmitCall) :
    (submit jsonBytes scope call).WritesOnly (WithinScope scope) := by
  unfold submit
  split
  · trivial
  · split
    · trivial
    · split
      · trivial
      · split
        · trivial
        · exact sendOrQueue_within _ _

theorem withdraw_within (call : WithdrawCall) :
    (withdraw scope call).WritesOnly (WithinScope scope) := by
  unfold withdraw
  split
  · trivial
  · split
    · exact (removeOutbox_within .cancelled (belongs_submissionOutboxKey _)).bind fun _ =>
        (readQueued_within "").bind fun _ => trivial
    · split
      · trivial
      · split <;> trivial

theorem handle_within (jsonBytes : Json → Nat) (action : StudentAction) :
    (handle jsonBytes scope action).WritesOnly (WithinScope scope) := by
  cases action with
  | flush answers =>
    exact (writesOnly_executeReturning _ withinScope_getAll).bind fun entries =>
      (flushEntries_within answers 0 entries "").bind fun message => readQueued_within message
  | submit call => exact submit_within jsonBytes call
  | withdraw call => exact withdraw_within call

end Frames

section Runs

def handleAccount (jsonBytes : Json → Nat) (r : Account × StudentAction) :
    OutboxProgram Screen :=
  handle jsonBytes r.1.scope r.2

/-- Nothing that belongs to the account was sent, stored or removed. -/
structure Untouched (account : Account) {ι : Type} (outbox : Outbox)
    (w : World ι Outbox OutboxStatement) : Prop where
  kept : ∀ entry, belongsToClassroomScope entry.key account.scope = true →
    (entry ∈ w.state.rows ↔ entry ∈ outbox.rows)
  unnamed : ∀ e ∈ w.history, ∀ key ∈ e.label.key?,
    belongsToClassroomScope key account.scope = false

variable {ι : Type} {account : Account} {outbox : Outbox}

theorem mem_of_unnamed {l : OutboxStatement} {outbox' : Outbox} {entry : OutboxEntry}
    (h : l.run outbox = .ok outbox') (hkey : l.key? ≠ some entry.key) :
    entry ∈ outbox'.rows ↔ entry ∈ outbox.rows := by
  cases l with
  | getAll =>
    cases h
    exact Iff.rfl
  | answer key payload answer =>
    cases h
    exact Iff.rfl
  | put newer =>
    cases h
    have hnewer : newer.key ≠ entry.key := fun heq => hkey (congrArg some heq)
    rw [Table.mem_put]
    constructor
    · rintro (⟨hold, -⟩ | rfl)
      · exact hold
      · exact absurd rfl hnewer
    · exact fun hold => .inl ⟨hold, by simpa [Keyed.clash] using Ne.symm hnewer⟩
  | delete key why =>
    cases h
    have hother : key ≠ entry.key := fun heq => hkey (congrArg some heq)
    rw [Table.mem_delete]
    exact ⟨And.left, fun hold => ⟨hold, by simpa using Ne.symm hother⟩⟩

theorem untouched_step {i : ι} {l : OutboxStatement} {w w' : World ι Outbox OutboxStatement}
    (h : Untouched account outbox w)
    (hl : ∀ key ∈ l.key?, belongsToClassroomScope key account.scope = false)
    (hw : World.Wrote i l w w') : Untouched account outbox w' := by
  obtain ⟨hrun, hhistory⟩ := hw
  refine ⟨fun entry hentry => ?_, ?_⟩
  · rw [mem_of_unnamed hrun, h.kept entry hentry]
    intro hkey
    rw [hl entry.key hkey] at hentry
    cases hentry
  · rw [hhistory]
    exact List.forall_mem_cons.mpr ⟨hl, h.unnamed⟩

/-- The rule for everyone else: to name no key of the account. -/
def othersProtocol (ι : Type) (account : Account) (outbox : Outbox) :
    Protocol ι Outbox OutboxStatement where
  inv := Untouched account outbox
  guard _ _ _ := True
  promise _ l _ := ∀ key ∈ l.key?, belongsToClassroomScope key account.scope = false
  inv_step _ _ _ _ hi _ hl hw := untouched_step hi hl hw

theorem handleAccount_follows (jsonBytes : Json → Nat) (hplain : account.Plain) (i : ι)
    (r : Account × StudentAction) (hr : r.1 ≠ account ∧ r.1.Plain) :
    (othersProtocol ι account outbox).Follows i (fun _ _ => True) (handleAccount jsonBytes r)
      (fun _ => True) :=
  Follows.of_writesOnly
    (fun _ _ hl key hkey => not_belongs_both (Ne.symm hr.1) hplain hr.2 (hl key hkey))
    (handle_within jsonBytes r.2)

variable [DecidableEq ι]

/-- No key of an account is in the scope of another one, and whatever the other accounts on the
device do, in any order of steps, leaves its entries alone. -/
theorem scopes_never_overlap (jsonBytes : Json → Nat) :
    (∀ account account' : Account, account ≠ account' → account.Plain → account'.Plain →
      (∀ name, belongsToClassroomScope (classroomCacheKey account.scope name)
        account'.scope = false) ∧
      ∀ assignmentId, belongsToClassroomScope (submissionOutboxKey account.scope assignmentId)
        account'.scope = false) ∧
    ∀ (account : Account) (outbox : Outbox) (ms : List (Move ι (Account × StudentAction))),
      account.Plain → (∀ i r, Move.start i r ∈ ms → r.1 ≠ account ∧ r.1.Plain) →
      Untouched account outbox ((Pool.idle outbox : Pool ι (Account × StudentAction) Outbox
        OutboxStatement String Screen).run (handleAccount jsonBytes) ms).world := by
  constructor
  · intro account account' hne h h'
    refine ⟨fun name => ?_, fun assignmentId => ?_⟩
    · rw [classroomCacheKey_eq]
      exact not_belongs_append hne h h' _
    · rw [submissionOutboxKey_eq]
      exact not_belongs_append hne h h' _
  · intro account outbox ms hplain hothers
    have hidle : (othersProtocol ι account outbox).inv ⟨outbox, []⟩ :=
      ⟨fun _ _ => Iff.rfl, List.forall_mem_nil _⟩
    have hguarded : (Pool.idle outbox : Pool ι (Account × StudentAction) Outbox OutboxStatement
        String Screen).Guarded (handleAccount jsonBytes) (fun r => r.1 ≠ account ∧ r.1.Plain)
        (fun _ _ _ => True) ms := Pool.guarded_of_prefixes (P := fun _ => True)
      (fun _ _ _ _ _ _ => trivial) hothers fun _ _ => trivial
    exact (running_run (fun i r hr => handleAccount_follows jsonBytes hplain i r hr)
      (running_idle hidle) hguarded).1

end Runs

end Cinder.Forge
