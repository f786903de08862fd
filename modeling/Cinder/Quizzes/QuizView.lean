import Cinder.Programs.SerialRuns
import Cinder.Quizzes.QuizEffects
import Cinder.Quizzes.QuizLoading
import Cinder.Storage.MaskedRows
set_option autoImplicit false

namespace Cinder.Quizzes
open Cinder.Host Cinder.Storage Cinder.Programs Cinder.Programs.Program

def shownAttempt (db : Database) (s id : Uuid) : Bool :=
  db.quizAttempts.rows.any fun a => a.id = id && a.studentId = s && a.submittedAt.isSome &&
    db.quizDeliveries.rows.any fun d => d.id = a.deliveryId && d.resultsReleasedAt.isSome

def shownVersion (db : Database) (s versionId : Uuid) : Bool :=
  db.quizAttempts.rows.any fun a => a.studentId = s && a.submittedAt.isSome &&
    db.quizDeliveries.rows.any fun d =>
      d.id = a.deliveryId && d.versionId = versionId && d.resultsReleasedAt.isSome

def eraseKey (q : QuizVersionQuestionRow) : QuizVersionQuestionRow :=
  { q with canonicalAnswer := .null }

def eraseResult (r : QuizResponseRow) : QuizResponseRow := { r with points := none, feedback := "" }

def eraseScore (a : QuizAttemptRow) : QuizAttemptRow := { a with score := none }

theorem exists_score_of_eraseScore {a a' : QuizAttemptRow} (h : eraseScore a = eraseScore a') :
    ∃ score, a' = { a with score } := by
  refine ⟨a'.score, ?_⟩
  cases a
  cases a'
  simp only [eraseScore, QuizAttemptRow.mk.injEq] at h
  simp [h]

def maskQuestion (shown : Uuid → Bool) (q : QuizVersionQuestionRow) : QuizVersionQuestionRow :=
  if shown q.versionId then q else eraseKey q

def maskResponse (shown : Uuid → Bool) (r : QuizResponseRow) : QuizResponseRow :=
  if shown r.attemptId then r else eraseResult r

def maskAttempt (shown : Uuid → Bool) (a : QuizAttemptRow) : QuizAttemptRow :=
  if shown a.id then a else eraseScore a

section Masks
variable (shown : Uuid → Bool)

theorem maskQuestion_keeps : Table.KeepsKeys (maskQuestion shown) := fun q q' => by
  unfold maskQuestion
  split <;> rfl

theorem maskResponse_keeps : Table.KeepsKeys (maskResponse shown) := fun r r' => by
  unfold maskResponse
  split <;> rfl

theorem maskAttempt_keeps : Table.KeepsKeys (maskAttempt shown) := fun a a' => by
  unfold maskAttempt
  split <;> rfl

theorem eraseKey_mask (q : QuizVersionQuestionRow) : eraseKey (maskQuestion shown q) = eraseKey q := by
  unfold maskQuestion
  split <;> rfl

theorem eraseResult_mask (r : QuizResponseRow) :
    eraseResult (maskResponse shown r) = eraseResult r := by
  unfold maskResponse
  split <;> rfl

theorem eraseScore_mask (a : QuizAttemptRow) : eraseScore (maskAttempt shown a) = eraseScore a := by
  unfold maskAttempt
  split <;> rfl

theorem maskQuestion_eq {q q' : QuizVersionQuestionRow}
    (h : maskQuestion shown q = maskQuestion shown q') :
    eraseKey q = eraseKey q' ∧ (shown q.versionId = true → q = q') := by
  have herase : eraseKey q = eraseKey q' := by
    rw [← eraseKey_mask shown q, h, eraseKey_mask]
  have hversion : q.versionId = q'.versionId := congrArg (fun q => q.versionId) herase
  refine ⟨herase, fun hs => ?_⟩
  unfold maskQuestion at h
  rwa [← hversion, if_pos hs, if_pos hs] at h

theorem maskResponse_eq {r r' : QuizResponseRow}
    (h : maskResponse shown r = maskResponse shown r') :
    eraseResult r = eraseResult r' ∧ (shown r.attemptId = true → r = r') := by
  have herase : eraseResult r = eraseResult r' := by
    rw [← eraseResult_mask shown r, h, eraseResult_mask]
  have hattempt : r.attemptId = r'.attemptId := congrArg (fun r => r.attemptId) herase
  refine ⟨herase, fun hs => ?_⟩
  unfold maskResponse at h
  rwa [← hattempt, if_pos hs, if_pos hs] at h

theorem maskAttempt_eq {a a' : QuizAttemptRow} (h : maskAttempt shown a = maskAttempt shown a') :
    eraseScore a = eraseScore a' ∧ (shown a.id = true → a = a') := by
  have herase : eraseScore a = eraseScore a' := by
    rw [← eraseScore_mask shown a, h, eraseScore_mask]
  have hid : a.id = a'.id := congrArg (fun a => a.id) herase
  refine ⟨herase, fun hs => ?_⟩
  unfold maskAttempt at h
  rwa [← hid, if_pos hs, if_pos hs] at h

theorem maskAttempt_congr {a a' : QuizAttemptRow} (herase : eraseScore a = eraseScore a')
    (hsame : shown a.id = true → a = a') : maskAttempt shown a = maskAttempt shown a' := by
  have hid : a.id = a'.id := congrArg (fun a => a.id) herase
  unfold maskAttempt
  rw [← hid]
  split
  · exact hsame ‹_›
  · exact herase

theorem maskResponse_hidden {r r' : QuizResponseRow} (hs : shown r.attemptId = false)
    (herase : eraseResult r = eraseResult r') : maskResponse shown r = maskResponse shown r' := by
  have hattempt : r.attemptId = r'.attemptId := congrArg (fun r => r.attemptId) herase
  simp [maskResponse, ← hattempt, hs, herase]

end Masks

/-- The database with everything erased that is hidden from the student: the
answer keys of versions of which no result is shown to the student, and the
points, the feedback and the score of every attempt that is not shown. -/
def view (s : Uuid) (db : Database) : Database :=
  { db with
    quizVersionQuestions := db.quizVersionQuestions.update (fun _ => true)
      (maskQuestion (shownVersion db s)) (maskQuestion_keeps _)
    quizResponses := db.quizResponses.update (fun _ => true)
      (maskResponse (shownAttempt db s)) (maskResponse_keeps _)
    quizAttempts := db.quizAttempts.update (fun _ => true)
      (maskAttempt (shownAttempt db s)) (maskAttempt_keeps _) }

/-- The databases differ only in what is hidden from the student. -/
structure SameView (s : Uuid) (db db' : Database) : Prop where
  frame : db' = { db with
    quizVersionQuestions := db'.quizVersionQuestions, quizResponses := db'.quizResponses
    quizAttempts := db'.quizAttempts }
  questions : Masked (maskQuestion (shownVersion db s)) db.quizVersionQuestions.rows
    db'.quizVersionQuestions.rows
  responses : Masked (maskResponse (shownAttempt db s)) db.quizResponses.rows
    db'.quizResponses.rows
  attempts : Masked (maskAttempt (shownAttempt db s)) db.quizAttempts.rows
    db'.quizAttempts.rows

section Shown
variable {s : Uuid} {db db' : Database}

theorem shownAttempt_congr (ha : Masked eraseScore db.quizAttempts.rows db'.quizAttempts.rows)
    (hd : db'.quizDeliveries = db.quizDeliveries) :
    shownAttempt db' s = shownAttempt db s := by
  funext id
  unfold shownAttempt
  rw [hd]
  exact (any_masked ha fun _ => rfl).symm

theorem shownVersion_congr (ha : Masked eraseScore db.quizAttempts.rows db'.quizAttempts.rows)
    (hd : db'.quizDeliveries = db.quizDeliveries) :
    shownVersion db' s = shownVersion db s := by
  funext versionId
  unfold shownVersion
  rw [hd]
  exact (any_masked ha fun _ => rfl).symm

theorem sameView_of_view (h : view s db = view s db') : SameView s db db' := by
  have hd : db'.quizDeliveries = db.quizDeliveries :=
    (congrArg (fun db => db.quizDeliveries) h).symm
  have hattempts := congrArg (fun db => db.quizAttempts.rows) h
  have hresponses := congrArg (fun db => db.quizResponses.rows) h
  have hquestions := congrArg (fun db => db.quizVersionQuestions.rows) h
  simp only [view, Table.rows_update, if_true] at hattempts hresponses hquestions
  have herase : Masked eraseScore db.quizAttempts.rows db'.quizAttempts.rows := by
    have hmap := congrArg (fun rows => rows.map eraseScore) hattempts
    simp only [List.map_map, Function.comp_def, eraseScore_mask] at hmap
    exact hmap
  rw [shownAttempt_congr herase hd] at hattempts hresponses
  rw [shownVersion_congr herase hd] at hquestions
  -- With its three masked tables put back, the view of a database is the database.
  refine ⟨?_, hquestions, hresponses, hattempts⟩
  exact (congrArg (fun x : Database => { x with
    quizVersionQuestions := db'.quizVersionQuestions, quizResponses := db'.quizResponses
    quizAttempts := db'.quizAttempts }) h).symm

namespace SameView

variable (h : SameView s db db')
include h

theorem deliveries : db'.quizDeliveries = db.quizDeliveries :=
  congrArg (fun db => db.quizDeliveries) h.frame

theorem delivery? (id : Uuid) : Quizzes.delivery? db' id = Quizzes.delivery? db id := by
  rw [Quizzes.delivery?, h.deliveries, Quizzes.delivery?]

theorem version? (id : Uuid) : Quizzes.version? db' id = Quizzes.version? db id := by
  have ht : db'.quizVersions = db.quizVersions := congrArg (fun db => db.quizVersions) h.frame
  rw [Quizzes.version?, ht, Quizzes.version?]

theorem classroom? (id : Uuid) : Host.classroom? db' id = Host.classroom? db id := by
  have ht : db'.classrooms = db.classrooms := congrArg (fun db => db.classrooms) h.frame
  rw [Host.classroom?, ht, Host.classroom?]

theorem user? (id : Uuid) : Host.user? db' id = Host.user? db id := by
  have ht : db'.users = db.users := congrArg (fun db => db.users) h.frame
  rw [Host.user?, ht, Host.user?]

theorem enrolled (classroomId studentId : Uuid) :
    Host.enrolled db' classroomId studentId = Host.enrolled db classroomId studentId := by
  have ht : db'.classroomEnrolments = db.classroomEnrolments :=
    congrArg (fun db => db.classroomEnrolments) h.frame
  rw [Host.enrolled, ht, Host.enrolled]

theorem findAttempt {p : QuizAttemptRow → Bool} (hp : ∀ a, p (eraseScore a) = p a) :
    Option.Rel (fun a a' => maskAttempt (shownAttempt db s) a = maskAttempt (shownAttempt db s) a')
      (db.quizAttempts.find? p) (db'.quizAttempts.find? p) :=
  find?_masked h.attempts fun a => by rw [← hp, eraseScore_mask, hp]

theorem attemptDelivery? (id : Uuid) :
    Option.Rel (fun x x' : QuizAttemptRow × QuizDeliveryRow =>
        maskAttempt (shownAttempt db s) x.1 = maskAttempt (shownAttempt db s) x'.1 ∧ x.2 = x'.2)
      (Quizzes.attemptDelivery? db id) (Quizzes.attemptDelivery? db' id) := by
  unfold Quizzes.attemptDelivery?
  have ha : Option.Rel _ (attempt? db id) (attempt? db' id) :=
    h.findAttempt (p := fun a => a.id = id) fun _ => rfl
  generalize attempt? db id = x at ha
  generalize attempt? db' id = x' at ha
  cases ha with
  | none => exact .none
  | @some a a' hm =>
    have hdel : a.deliveryId = a'.deliveryId :=
      congrArg (fun a => a.deliveryId) (maskAttempt_eq _ hm).1
    simp only [Option.bind_some, h.delivery?, hdel]
    cases Quizzes.delivery? db a'.deliveryId with
    | none => exact .none
    | some d => exact .some ⟨hm, rfl⟩

theorem attemptQuestions (id : Uuid) :
    Masked eraseKey (Quizzes.attemptQuestions db id) (Quizzes.attemptQuestions db' id) := by
  have had := h.attemptDelivery? id
  have hquestions : Masked eraseKey db.quizVersionQuestions.rows db'.quizVersionQuestions.rows :=
    map_masked h.questions (eraseKey_mask _)
  unfold Quizzes.attemptQuestions
  generalize Quizzes.attemptDelivery? db id = x at had
  generalize Quizzes.attemptDelivery? db' id = x' at had
  cases had with
  | none => rfl
  | @some x x' hx =>
    obtain ⟨a, d⟩ := x
    obtain ⟨a', d'⟩ := x'
    obtain rfl : d = d' := hx.2
    exact filter_masked hquestions fun _ => rfl

theorem attemptResponses (id : Uuid) :
    Masked eraseResult (Quizzes.attemptResponses db id) (Quizzes.attemptResponses db' id) :=
  filter_masked (map_masked h.responses (eraseResult_mask _)) fun _ => rfl

theorem missingRequired (id : Uuid) :
    Quizzes.missingRequired db' id = Quizzes.missingRequired db id := by
  have hany : ∀ q : QuizVersionQuestionRow,
      ((Quizzes.attemptResponses db' id).any fun r => r.questionId = q.id && !blank r.answer) =
        (Quizzes.attemptResponses db id).any fun r => r.questionId = q.id && !blank r.answer :=
    fun q => (any_masked (h.attemptResponses id) fun _ => rfl).symm
  unfold Quizzes.missingRequired
  simp only [hany]
  exact (countP_masked (h.attemptQuestions id) fun _ => rfl).symm

theorem manualMissing (id : Uuid) :
    Quizzes.manualMissing db' id = Quizzes.manualMissing db id := by
  have hgiven : ∀ q : QuizVersionQuestionRow,
      ((Quizzes.attemptResponses db' id).any fun r => r.questionId = q.id) =
        (Quizzes.attemptResponses db id).any fun r => r.questionId = q.id :=
    fun q => (any_masked (h.attemptResponses id) fun _ => rfl).symm
  have hgraded : ∀ q : QuizVersionQuestionRow,
      ((Quizzes.attemptResponses db' id).any fun r => r.questionId = q.id && r.gradedAt.isSome) =
        (Quizzes.attemptResponses db id).any fun r => r.questionId = q.id && r.gradedAt.isSome :=
    fun q => (any_masked (h.attemptResponses id) fun _ => rfl).symm
  unfold Quizzes.manualMissing
  simp only [hgiven, hgraded]
  exact (countP_masked (h.attemptQuestions id) fun _ => rfl).symm

theorem studentQuestions (versionId : Uuid) :
    Quizzes.studentQuestions db' versionId = Quizzes.studentQuestions db versionId := by
  have hquestions : Masked eraseKey db.quizVersionQuestions.rows db'.quizVersionQuestions.rows :=
    map_masked h.questions (eraseKey_mask _)
  have hrows := map_masked (g := StudentQuizQuestion.ofRow) (filter_masked
    (p := fun q => q.versionId = versionId) hquestions fun _ => rfl) fun _ => rfl
  unfold Quizzes.studentQuestions versionQuestions
  rw [hrows]

theorem withAttempts {t t' : Table QuizAttemptRow}
    (ht : Masked (maskAttempt (shownAttempt db s)) t.rows t'.rows)
    (hattempt : shownAttempt { db with quizAttempts := t } s = shownAttempt db s)
    (hversion : shownVersion { db with quizAttempts := t } s = shownVersion db s) :
    SameView s { db with quizAttempts := t } { db' with quizAttempts := t' } := by
  refine ⟨congrArg (fun db : Database => { db with quizAttempts := t' }) h.frame, ?_, ?_, ?_⟩
  · rw [hversion]
    exact h.questions
  · rw [hattempt]
    exact h.responses
  · rw [hattempt]
    exact ht

theorem withResponses {t t' : Table QuizResponseRow}
    (ht : Masked (maskResponse (shownAttempt db s)) t.rows t'.rows) :
    SameView s { db with quizResponses := t } { db' with quizResponses := t' } :=
  ⟨congrArg (fun db : Database => { db with quizResponses := t' }) h.frame, h.questions, ht,
    h.attempts⟩

end SameView

theorem shown_of_submitted {a : QuizAttemptRow} {d : QuizDeliveryRow} {id : Uuid}
    (had : attemptDelivery? db id = some (a, d)) (hs : a.studentId = s)
    (hsub : a.submittedAt.isSome = true) (hrel : d.resultsReleasedAt.isSome = true) :
    shownAttempt db s id = true ∧ shownVersion db s d.versionId = true := by
  obtain ⟨ha, hd⟩ := attemptDelivery?_eq_some.mp had
  obtain ⟨hamem, haid⟩ := Table.mem_of_find? ha
  obtain ⟨hdmem, hdid⟩ := Table.mem_of_find? hd
  simp only [decide_eq_true_eq] at haid hdid
  constructor
  · refine List.any_eq_true.mpr ⟨a, hamem, ?_⟩
    have hany : (db.quizDeliveries.rows.any fun d =>
        d.id = a.deliveryId && d.resultsReleasedAt.isSome) = true :=
      List.any_eq_true.mpr ⟨d, hdmem, by simp [hdid, hrel]⟩
    simp [haid, hs, hsub, hany]
  · refine List.any_eq_true.mpr ⟨a, hamem, ?_⟩
    have hany : (db.quizDeliveries.rows.any fun d' =>
        d'.id = a.deliveryId && d'.versionId = d.versionId && d'.resultsReleasedAt.isSome) =
          true :=
      List.any_eq_true.mpr ⟨d, hdmem, by simp [hdid, hrel]⟩
    simp [hs, hsub, hany]

theorem not_shown_of_open {a : QuizAttemptRow} {id : Uuid} (ha : attempt? db id = some a)
    (hsub : a.submittedAt = none) : shownAttempt db s id = false := by
  obtain ⟨hamem, haid⟩ := Table.mem_of_find? ha
  simp only [decide_eq_true_eq] at haid
  refine List.any_eq_false.mpr fun b hb => ?_
  by_cases hid : b.id = id
  · have hsame : b = a := Table.eq_of_clash hb hamem (by simp [Keyed.clash, hid, haid])
    simp [hsame, hsub]
  · simp [hid]

theorem shown_markAttempt (now : Time) {id : Uuid} {a : QuizAttemptRow} {d : QuizDeliveryRow}
    (had : attemptDelivery? db id = some (a, d)) (hrel : d.resultsReleasedAt = none) :
    let marked := { db with
      quizAttempts := db.quizAttempts.update (fun a => a.id = id) (markAttempt now)
        (markAttempt_keeps now) }
    shownAttempt marked s = shownAttempt db s ∧ shownVersion marked s = shownVersion db s := by
  obtain ⟨ha, hd⟩ := attemptDelivery?_eq_some.mp had
  obtain ⟨hamem, haid⟩ := Table.mem_of_find? ha
  obtain ⟨hdmem, hdid⟩ := Table.mem_of_find? hd
  simp only [decide_eq_true_eq] at haid hdid
  have hown : ∀ r ∈ db.quizAttempts.rows, r.id = id → r = a := fun r hr hid =>
    Table.eq_of_clash hr hamem (by simp [Keyed.clash, hid, haid])
  have hclosed : ∀ p : QuizDeliveryRow → Bool, (db.quizDeliveries.rows.any fun d' =>
      d'.id = a.deliveryId && (p d' && d'.resultsReleasedAt.isSome)) = false := fun p => by
    refine List.any_eq_false.mpr fun d' hd' => ?_
    by_cases hid : d'.id = a.deliveryId
    · have hsame : d' = d := Table.eq_of_clash hd' hdmem (by simp [Keyed.clash, hid, hdid])
      simp [hsame, hrel]
    · simp [hid]
  constructor
  · funext id'
    refine any_map_congr fun r hr => ?_
    split
    · next hid =>
      have hreleased := hclosed fun _ => true
      simp only [Bool.true_and] at hreleased
      simp [hown r hr (by simpa using hid), markAttempt, hreleased]
    · rfl
  · funext versionId
    refine any_map_congr fun r hr => ?_
    split
    · next hid =>
      have hreleased := hclosed fun d' => d'.versionId = versionId
      simp only [← Bool.and_assoc] at hreleased
      simp [hown r hr (by simpa using hid), markAttempt, hreleased]
    · rfl

end Shown

end Cinder.Quizzes
