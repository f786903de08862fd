import Cinder.Quizzes.QuizRelease
set_option autoImplicit false

namespace Cinder.Quizzes
open Cinder.Host Cinder.Storage Cinder.Programs Cinder.Programs.Program Cinder.Programs.Protocol

def TitleFits (title : String) : Prop := trim title ≠ "" ∧ charCount title ≤ 200

def LimitFits (limit : Option Nat) : Prop := ∀ m ∈ limit, 0 < m ∧ m ≤ 180

def QuestionsFit (questions : List QuizQuestionInput) : Prop :=
  questions ≠ [] ∧ questions.length ≤ 100 ∧ ∀ q ∈ questions, validateQuestion q = .ok ()

section Validation

theorem checked_bind_eq_ok {α : Type} {ok : Bool} {message : String} {f : Unit → Except HostError α}
    {a : α} : (checked ok message >>= f) = .ok a ↔ ok = true ∧ f () = .ok a := by
  cases ok with
  | true => exact ⟨fun h => ⟨rfl, h⟩, And.right⟩
  | false =>
    constructor
    · intro h
      cases h
    · intro h
      cases h.1

theorem validateQuestions_eq_ok {questions : List QuizQuestionInput} :
    validateQuestions questions = .ok () ↔ ∀ q ∈ questions, validateQuestion q = .ok () := by
  induction questions with
  | nil => simp [validateQuestions]
  | cons q questions ih =>
    rw [validateQuestions, bind_eq_ok, List.forall_mem_cons, ← ih]
    exact ⟨fun ⟨_, hq, hqs⟩ => ⟨hq, hqs⟩, fun ⟨hq, hqs⟩ => ⟨(), hq, hqs⟩⟩

theorem validateQuiz_eq_ok {req : SaveQuizRequest} : validateQuiz req = .ok () ↔
    TitleFits req.title ∧ QuestionsFit req.questions ∧ LimitFits req.timeLimitMinutes := by
  have hlimit : (req.timeLimitMinutes.all fun m => 0 < m && m ≤ 180) = true ↔
      LimitFits req.timeLimitMinutes := by
    cases req.timeLimitMinutes <;> simp [LimitFits]
  unfold validateQuiz
  simp only [checked_bind_eq_ok, validateQuestions_eq_ok, hlimit, Bool.and_eq_true,
    decide_eq_true_eq]
  constructor
  · intro ⟨htitle, hcount, hm, hvalid⟩
    exact ⟨htitle, ⟨hcount.1, hcount.2, hvalid⟩, hm⟩
  · intro ⟨htitle, ⟨hsome, hcount, hvalid⟩, hm⟩
    exact ⟨htitle, ⟨hsome, hcount⟩, hm, hvalid⟩

theorem TitleFits.trim {title : String} (h : TitleFits title) : TitleFits (trim title) :=
  ⟨by rw [trim_trim]; exact h.1, Nat.le_trans (charCount_trim_le title) h.2⟩

theorem titleFits_copy {title : String} :
    TitleFits (title ++ " copy") ↔ charCount title ≤ 195 := by
  have hcount : charCount (title ++ " copy") = charCount title + 5 := charCount_append title _
  have hsome : Host.trim (title ++ " copy") ≠ "" :=
    trim_ne_empty (c := 'c') (by simp) (by decide)
  rw [TitleFits, hcount]
  constructor
  · rintro ⟨-, h⟩
    omega
  · intro h
    exact ⟨hsome, by omega⟩

theorem validateQuestion_trimmed {q q' : QuizQuestionInput} (hkind : q'.kind = q.kind)
    (hprompt : q'.prompt = trim q.prompt) (hoptions : q'.options = q.options)
    (hanswer : q'.canonicalAnswer = q.canonicalAnswer) (hmax : q'.maxPoints = q.maxPoints)
    (h : validateQuestion q = .ok ()) : validateQuestion q' = .ok () := by
  unfold validateQuestion at h ⊢
  rw [checked_bind_eq_ok] at h ⊢
  rw [hkind, hprompt, hoptions, hanswer, hmax, trim_trim]
  refine ⟨?_, h.2⟩
  have hok := h.1
  have hle := charCount_trim_le q.prompt
  simp only [Bool.and_eq_true, decide_eq_true_eq] at hok ⊢
  exact ⟨hok.1, by omega⟩

end Validation

def questionInput (r : QuizDraftQuestionRow) : QuizQuestionInput :=
  { id := some r.id, kind := r.kind, prompt := r.prompt, options := r.options
    canonicalAnswer := r.canonicalAnswer, maxPoints := r.maxPoints, required := r.required }

section Drafts
variable (db : Database)

def questionRows (quizId : Uuid) : List QuizDraftQuestionRow :=
  db.quizDraftQuestions.rows.filter fun r => r.quizId = quizId

def storedDraft (q : QuizRow) : SaveQuizRequest :=
  { classroomId := q.classroomId, title := q.title, instructions := q.instructions
    timeLimitMinutes := q.timeLimitMinutes
    questions := ((questionRows db q.id).insertionSort fun r r' => r.position ≤ r'.position).map
      questionInput }

def Publishable : Prop := ∀ q ∈ db.quizzes.rows, validateQuiz (storedDraft db q) = .ok ()

end Drafts

section Rows
variable {db db' : Database} {id : Uuid}

theorem QuestionsFit.perm {qs qs' : List QuizQuestionInput} (h : QuestionsFit qs)
    (hperm : qs.Perm qs') : QuestionsFit qs' :=
  ⟨fun hnil => h.1 (by rw [hnil] at hperm; exact hperm.eq_nil), hperm.length_eq ▸ h.2.1,
    fun q hq => h.2.2 q (hperm.mem_iff.mpr hq)⟩

theorem storedDraft_perm (q : QuizRow) :
    (storedDraft db q).questions.Perm ((questionRows db q.id).map questionInput) :=
  (List.perm_insertionSort _ _).map _

theorem validateQuiz_storedDraft {q : QuizRow} : validateQuiz (storedDraft db q) = .ok () ↔
    TitleFits q.title ∧ QuestionsFit ((questionRows db q.id).map questionInput) ∧
      LimitFits q.timeLimitMinutes := by
  have hquestions : QuestionsFit (storedDraft db q).questions ↔
      QuestionsFit ((questionRows db q.id).map questionInput) :=
    ⟨fun h => h.perm (storedDraft_perm q), fun h => h.perm (storedDraft_perm q).symm⟩
  rw [validateQuiz_eq_ok, hquestions]
  rfl

theorem questionsFit_draftRows {fresh : Nat → Uuid} {questions : List QuizQuestionInput}
    (h : QuestionsFit questions) :
    QuestionsFit ((draftRows id fresh questions).map questionInput) := by
  have hlength : ((draftRows id fresh questions).map questionInput).length = questions.length := by
    simp [draftRows]
  refine ⟨fun hnil => h.1 ?_, hlength ▸ h.2.1, fun q' hq' => ?_⟩
  · rw [hnil] at hlength
    exact List.length_eq_zero_iff.mp hlength.symm
  · obtain ⟨r, hr, rfl⟩ := List.mem_map.mp hq'
    obtain ⟨i, hi, rfl⟩ := List.mem_mapIdx.mp hr
    have hvalid := h.2.2 questions[i] (List.getElem_mem hi)
    exact validateQuestion_trimmed (q := questions[i]) rfl rfl rfl rfl rfl hvalid

theorem questionRows_replaced {fresh : Nat → Uuid} {questions : List QuizQuestionInput}
    (h : replaceDraftQuestions db.quizDraftQuestions id fresh questions =
      some db'.quizDraftQuestions) :
    questionRows db' id = draftRows id fresh questions ∧
      ∀ id', id' ≠ id → questionRows db' id' = questionRows db id' := by
  have hown : ∀ r ∈ draftRows id fresh questions, r.quizId = id := by
    intro r hr
    obtain ⟨i, hi, rfl⟩ := List.mem_mapIdx.mp hr
    rfl
  have hrows := Table.rows_insertAll h
  rw [Table.rows_delete] at hrows
  constructor
  · rw [questionRows, hrows, List.filter_append, List.filter_filter,
      List.filter_eq_nil_iff.mpr (by simp), List.nil_append,
      List.filter_eq_self.mpr fun r hr => decide_eq_true (hown r hr)]
  · intro id' hid
    have hnone : (draftRows id fresh questions).filter (fun r => r.quizId = id') = [] :=
      List.filter_eq_nil_iff.mpr fun r hr => by simp [hown r hr, Ne.symm hid]
    rw [questionRows, hrows, List.filter_append, hnone, List.append_nil, List.filter_filter,
      questionRows]
    refine List.filter_congr fun r _ => ?_
    by_cases hr : r.quizId = id' <;> simp [hr, hid]

end Rows

section Statements
variable {l : QuizStatement} {db db' : Database}

def DraftsEffect (db db' : Database) : QuizStatement → Prop
  | .createQuiz quiz questions fresh _ => db.quizzes.insert quiz = some db'.quizzes ∧
      replaceDraftQuestions db.quizDraftQuestions quiz.id fresh questions =
        some db'.quizDraftQuestions
  | .updateQuiz id req updatedAt fresh _ => db'.quizzes =
        db.quizzes.update (fun q => q.id = id && q.archivedAt.isNone) (editQuiz updatedAt req)
          (editQuiz_keeps updatedAt req) ∧
      replaceDraftQuestions db.quizDraftQuestions id fresh req.questions =
        some db'.quizDraftQuestions
  | .archiveQuiz id now =>
    db'.quizzes = db.quizzes.update (fun q => q.id = id) (archiveRow now) (archiveRow_keeps now) ∧
      db'.quizDraftQuestions = db.quizDraftQuestions
  | _ => db'.quizzes = db.quizzes ∧ db'.quizDraftQuestions = db.quizDraftQuestions

theorem run_drafts (h : l.run db = .ok db') : DraftsEffect db db' l := by
  cases l with
  | createQuiz quiz questions fresh entry =>
    obtain ⟨quizzes, hquizzes, h⟩ := bind_eq_ok.mp h
    obtain ⟨drafts, hdrafts, h⟩ := bind_eq_ok.mp h
    cases h; exact ⟨stored_eq_ok.mp hquizzes, stored_eq_ok.mp hdrafts⟩
  | updateQuiz id req updatedAt fresh entry =>
    obtain ⟨drafts, hdrafts, h⟩ := bind_eq_ok.mp h
    cases h; exact ⟨rfl, stored_eq_ok.mp hdrafts⟩
  | publishQuiz quiz versionId fresh now entry =>
    obtain ⟨_, _, h⟩ := bind_eq_ok.mp h
    obtain ⟨_, _, h⟩ := bind_eq_ok.mp h
    cases h; exact ⟨rfl, rfl⟩
  | insertDelivery | insertAttempt | upsertResponse =>
    obtain ⟨_, _, h⟩ := bind_eq_ok.mp h
    cases h; exact ⟨rfl, rfl⟩
  | archiveQuiz | markSubmitted | writeScore | reopenAttempt | gradeResponse | releaseResults
  | audit => cases h; exact ⟨rfl, rfl⟩

theorem quizStored_step (h : l.run db = .ok db') {id : Uuid}
    (hid : ∃ q ∈ db.quizzes.rows, q.id = id) : ∃ q ∈ db'.quizzes.rows, q.id = id := by
  obtain ⟨q, hq, rfl⟩ := hid
  have heffect := run_drafts h
  cases l with
  | createQuiz => exact ⟨q, (Table.mem_insert heffect.1).mpr (.inl hq), rfl⟩
  | updateQuiz =>
    refine ⟨_, heffect.1 ▸ Table.mem_update.mpr ⟨q, hq, rfl⟩, ?_⟩
    split <;> rfl
  | archiveQuiz =>
    refine ⟨_, heffect.1 ▸ Table.mem_update.mpr ⟨q, hq, rfl⟩, ?_⟩
    split <;> rfl
  | publishQuiz | insertDelivery | insertAttempt | upsertResponse | markSubmitted | writeScore
  | reopenAttempt | gradeResponse | releaseResults | audit => exact ⟨q, heffect.1 ▸ hq, rfl⟩

/-- What a statement that writes a draft is to keep to. -/
def WritesFitting : QuizStatement → Prop
  | .createQuiz quiz questions _ _ =>
    TitleFits quiz.title ∧ QuestionsFit questions ∧ LimitFits quiz.timeLimitMinutes
  | .updateQuiz _ req _ _ _ => validateQuiz req = .ok ()
  | _ => True

theorem publishable_step (h : l.run db = .ok db') (hl : WritesFitting l) (hdb : Publishable db) :
    Publishable db' := by
  have heffect := run_drafts h
  intro q' hq'
  rw [validateQuiz_storedDraft]
  cases l with
  | createQuiz quiz questions fresh entry =>
    obtain ⟨htitle, hquestions, hlimit⟩ := hl
    obtain ⟨hnew, hothers⟩ := questionRows_replaced heffect.2
    rcases (Table.mem_insert heffect.1).mp hq' with hold | rfl
    · have hid : q'.id ≠ quiz.id := fun hsame => by
        have hclash := Table.clash_insert heffect.1 hold
        simp [Keyed.clash, hsame] at hclash
      rw [hothers q'.id hid]
      exact validateQuiz_storedDraft.mp (hdb q' hold)
    · rw [hnew]
      exact ⟨htitle, questionsFit_draftRows hquestions, hlimit⟩
  | updateQuiz id req updatedAt fresh entry =>
    obtain ⟨htitle, hquestions, hlimit⟩ := validateQuiz_eq_ok.mp hl
    obtain ⟨hnew, hothers⟩ := questionRows_replaced heffect.2
    rw [heffect.1] at hq'
    obtain ⟨q, hq, rfl⟩ := Table.mem_update.mp hq'
    obtain ⟨hqtitle, hqquestions, hqlimit⟩ := validateQuiz_storedDraft.mp (hdb q hq)
    have hrows : QuestionsFit ((questionRows db' q.id).map questionInput) := by
      by_cases hid : q.id = id
      · rw [hid, hnew]
        exact questionsFit_draftRows hquestions
      · rw [hothers q.id hid]
        exact hqquestions
    split
    · exact ⟨htitle.trim, hrows, hlimit⟩
    · exact ⟨hqtitle, hrows, hqlimit⟩
  | archiveQuiz id now =>
    rw [heffect.1] at hq'
    obtain ⟨q, hq, rfl⟩ := Table.mem_update.mp hq'
    have hdraft := validateQuiz_storedDraft.mp (hdb q hq)
    rw [questionRows, heffect.2]
    split <;> exact hdraft
  | publishQuiz | insertDelivery | insertAttempt | upsertResponse | markSubmitted | writeScore
  | reopenAttempt | gradeResponse | releaseResults | audit =>
    rw [questionRows, heffect.2]
    exact validateQuiz_storedDraft.mp (hdb q' (heffect.1 ▸ hq'))

end Statements

/-- Where the statement stores a copy, the title it was copied from leaves room for
`" copy"`. -/
def CopiesShortTitle : QuizStatement → Prop
  | .createQuiz quiz _ _ entry => entry.action = "quiz_duplicated" →
      ∃ title, quiz.title = title ++ " copy" ∧ charCount title ≤ 195
  | _ => True

section Handlers
variable {ι : Type} (i : ι) (env : Env) (user : CurrentUser) (id : Uuid)

/-- Every draft stays publishable while the titles that are copied are short. -/
def drafting (ι : Type) : Protocol ι Database QuizStatement where
  inv w := Publishable w.state
  guard _ l _ := CopiesShortTitle l
  promise _ l _ := WritesFitting l
  inv_step _ _ _ _ hi _ hp hw := publishable_step hw.1 hp hi

def DraftFits (quiz : Quiz) : Prop := validateQuiz (draftRequest quiz) = .ok ()

/-- The two reads of `load_quiz` may see two states, and what they return is fitting. -/
theorem loadQuiz_follows : (drafting ι).Follows i (fun quiz _ => DraftFits quiz) (loadQuiz id)
    (fun _ => True) := by
  have htrue := (drafting ι).stable_const i True
  have hstored : ∀ row : QuizRow × ClassroomRow × Option Nat, (drafting ι).Stable i fun w =>
      (TitleFits row.1.title ∧ LimitFits row.1.timeLimitMinutes) ∧
        ∃ q ∈ w.state.quizzes.rows, q.id = id := fun row j l w w' _ h _ _ _ hw =>
    ⟨h.1, quizStored_step hw.1 h.2⟩
  unfold loadQuiz
  refine Follows.bind (Follows.queryRow htrue hstored fun w row hinv _ hrow => ?_) fun row => ?_
  · obtain ⟨q, hq, hrow⟩ := Option.bind_eq_some_iff.mp hrow
    obtain ⟨c, -, hcolumns⟩ := Option.bind_eq_some_iff.mp hrow
    cases hcolumns
    obtain ⟨hmem, hid⟩ := Table.mem_of_find? hq
    obtain ⟨htitle, -, hlimit⟩ := validateQuiz_storedDraft.mp (hinv q hmem)
    exact ⟨⟨htitle, hlimit⟩, q, hmem, of_decide_eq_true hid⟩
  · have hparts : ∀ rows : List QuizDraftQuestionRow, (drafting ι).Stable i fun _ =>
        (TitleFits row.1.title ∧ LimitFits row.1.timeLimitMinutes) ∧
          QuestionsFit (rows.map questionInput) := fun rows => (drafting ι).stable_const i _
    obtain ⟨q, c, published⟩ := row
    refine Follows.bind (Follows.query (hstored _) hparts fun w hinv hw => ?_) fun rows => ?_
    · obtain ⟨hhead, q', hmem, rfl⟩ := hw
      obtain ⟨-, hquestions, -⟩ := validateQuiz_storedDraft.mp (hinv q' hmem)
      exact ⟨hhead, hquestions.perm ((List.perm_insertionSort _ _).map _).symm⟩
    · refine Follows.ret (hparts rows) fun w hw => ?_
      obtain ⟨⟨htitle, hlimit⟩, hquestions⟩ := hw
      refine validateQuiz_eq_ok.mpr ⟨htitle, ?_, hlimit⟩
      rw [draftRequest, List.map_map]
      exact hquestions

theorem duplicateQuiz_follows : (drafting ι).Follows i (fun _ _ => True)
    (duplicateQuiz env user id) (fun _ => True) := by
  have htrue := (drafting ι).stable_const i True
  unfold duplicateQuiz
  refine (Follows.readOnly htrue (requireTeacher_readOnly _)).bind fun _ => ?_
  refine (loadQuiz_follows i id).bind fun source => ?_
  have hsource := (drafting ι).stable_const i (DraftFits source)
  refine (Follows.readOnly hsource (requireActiveQuiz_readOnly _)).bind fun _ => ?_
  refine (Follows.readOnly hsource (requireTeacherAccess_readOnly _ _)).bind fun _ => ?_
  refine Follows.bind (Follows.execute hsource htrue fun w w' _ hfits _ hguard => ?_) fun _ => ?_
  · obtain ⟨-, ⟨hsome, hcount, hvalid⟩, hlimit⟩ := validateQuiz_eq_ok.mp hfits
    obtain ⟨title, hcopy, hshort⟩ := hguard rfl
    have htitle : TitleFits (source.title ++ " copy") := by
      rw [show source.title ++ " copy" = title ++ " copy" from hcopy]
      exact titleFits_copy.mpr hshort
    simp only [draftRequest, ne_eq, List.map_eq_nil_iff, List.length_map] at hsome hcount
    refine ⟨⟨htitle, ⟨?_, ?_, fun q hq => ?_⟩, hlimit⟩, trivial⟩
    · simpa using hsome
    · simpa using hcount
    · obtain ⟨q', hq', rfl⟩ := List.mem_map.mp hq
      have hinput := hvalid _ (List.mem_map.mpr ⟨q', hq', rfl⟩)
      exact hinput
  · exact Follows.readOnly htrue (loadQuiz_readOnly _)

/-- What a request that copies nothing writes is fitting, as it has been validated. -/
theorem issued_fitting {request : QuizRequest} {l : QuizStatement} (h : Issued request l)
    (hnone : ∀ id, request ≠ .duplicate id) : WritesFitting l := by
  cases h with
  | create hvalid htitle hlimit haction =>
    obtain ⟨hfits, hquestions, hlimits⟩ := validateQuiz_eq_ok.mp hvalid
    exact ⟨htitle ▸ hfits.trim, hquestions, hlimit ▸ hlimits⟩
  | update hvalid => exact hvalid
  | duplicate => exact absurd rfl (hnone _)
  | ordinary hordinary =>
    cases l with
    | createQuiz | updateQuiz => cases hordinary
    | _ => trivial
  | archive | archiveAudit | publish | start | reopen => trivial

theorem handle_drafting_follows (u : SaveUpsert) (call : QuizCall) :
    (drafting ι).Follows i (fun _ _ => True) (handle u call) (fun _ => True) := by
  by_cases hcopy : ∃ id, call.request = .duplicate id
  · obtain ⟨env, user, request⟩ := call
    obtain ⟨id, rfl⟩ := hcopy
    exact (duplicateQuiz_follows i env user id).bind fun _ =>
      Follows.ret ((drafting ι).stable_const i True) fun _ _ => trivial
  · exact Follows.of_writesOnly (fun _ _ hl => hl) ((handle_issues u call).imp fun _ h =>
      issued_fitting h fun id hid => hcopy ⟨id, hid⟩)

def TitledAfter : QuizStatement → Prop
  | .createQuiz quiz _ _ entry => entry.action = "quiz_duplicated" →
      ∃ title, quiz.title = title ++ " copy"
  | _ => True

theorem handle_titled (u : SaveUpsert) (call : QuizCall) :
    (handle u call).WritesOnly TitledAfter := by
  obtain ⟨env, user, request⟩ := call
  refine (handle_issues u _).imp fun l h => ?_
  cases h with
  | create hvalid htitle hlimit haction =>
    intro hcopy
    rw [haction] at hcopy
    exact absurd hcopy (by decide)
  | duplicate htitle => exact fun _ => htitle
  | ordinary hordinary =>
    cases l with
    | createQuiz => cases hordinary
    | _ => trivial
  | update | archive | archiveAudit | publish | start | reopen => trivial

end Handlers

section Publishing
variable {db : Database} {env : Env} {teacher : CurrentUser} {id : Uuid} {q : QuizRow}

theorem exec_loadQuiz {k : ClassroomRow} (hq : quiz? db id = some q)
    (hk : classroom? db q.classroomId = some k) :
    ∃ quiz, (loadQuiz id).exec db = (.ok quiz, db) ∧ draftRequest quiz = storedDraft db q ∧
      quiz.archived = q.archivedAt.isSome ∧ quiz.classroomId = q.classroomId := by
  have hid : q.id = id := of_decide_eq_true (Table.mem_of_find? hq).2
  unfold loadQuiz
  let versions := db.quizVersions.rows.filter fun v => v.quizId = id
  rw [exec_bind_ok _ (exec_queryRow_some
    (a := (q, k, (versions.map fun v => v.versionNumber).max?)) (by simp [hq, hk, versions])),
    exec_bind_ok _ (exec_query _ db)]
  refine ⟨_, rfl, ?_, rfl, rfl⟩
  simp only [draftRequest, storedDraft, questionRows, List.map_map, hid]
  rfl

theorem loadQuiz_not_badRequest (db : Database) (id : Uuid) (m : String) :
    ((loadQuiz id).exec db).1 ≠ .error (.badRequest m) := by
  unfold loadQuiz
  rw [exec_bind, exec_queryRow]
  intro h
  split at h
  · cases h
  · next herror =>
    split at herror
    · cases herror
    · cases herror
      cases h

theorem publishQuiz_not_badRequest (hdb : Publishable db) (hq : quiz? db id = some q)
    (hactive : q.archivedAt = none) (hteacher : teacher.role.isTeacher = true)
    (haccess : teacherCanAccess db q.classroomId teacher.id = true) (m : String) :
    ((publishQuiz env teacher id).exec db).1 ≠ .error (.badRequest m) := by
  obtain ⟨k, hk⟩ := classroom?_of_access haccess
  obtain ⟨quiz, hload, hdraft, harchived, hclassroom⟩ := exec_loadQuiz hq hk
  have hvalid := hdb q (Table.mem_of_find? hq).1
  rw [← hdraft] at hvalid
  replace harchived : quiz.archived = false := by rw [harchived, hactive]; rfl
  rw [← hclassroom] at haccess
  unfold publishQuiz
  rw [exec_bind_ok _ (by rw [requireTeacher, exec_require, if_pos hteacher]),
    exec_bind_ok _ hload, exec_bind_ok _ (by rw [requireActiveQuiz, exec_require,
      if_pos harchived]), exec_bind_ok _ (exec_requireTeacherAccess haccess),
    exec_bind_ok _ (by rw [exec_ofExcept, hvalid]), exec_bind, execute, exec_write]
  intro h
  split at h
  · exact loadQuiz_not_badRequest _ _ _ h
  · next herror =>
    split at herror
    · cases herror
    · next hrun =>
      cases herror
      cases h
      rcases bind_eq_error.mp hrun with hfail | ⟨_, -, hthen⟩
      · cases stored_eq_error hfail
      · rcases bind_eq_error.mp hthen with hfail | ⟨_, -, hok⟩
        · cases stored_eq_error hfail
        · cases hok

def NeverRejected (db : Database) : Prop :=
  ∀ env teacher id q, quiz? db id = some q → q.archivedAt = none →
    teacher.role.isTeacher = true → teacherCanAccess db q.classroomId teacher.id = true →
    ∀ m, ((publishQuiz env teacher id).exec db).1 ≠ .error (.badRequest m)

theorem neverRejected (hdb : Publishable db) : NeverRejected db :=
  fun _ _ _ _ hq hactive hteacher haccess =>
    publishQuiz_not_badRequest hdb hq hactive hteacher haccess

end Publishing

section Runs
variable {ι : Type} [DecidableEq ι]

/-- In a run of quiz requests every draft can be published in every state if and only if
each quiz that is copied has a title of at most 195 characters. -/
theorem drafts_publishable_iff (u : SaveUpsert) (db : Database) (hdb : Publishable db)
    (ms : List (Move ι QuizCall)) :
    (Pool.idle db : QuizPool ι).Guarded (handle u) (fun _ => True)
        (fun _ l _ => CopiesShortTitle l) ms ↔
      ∀ ns, ns <+: ms → Publishable ((Pool.idle db : QuizPool ι).run (handle u) ns).world.state ∧
        NeverRejected ((Pool.idle db : QuizPool ι).run (handle u) ns).world.state := by
  constructor
  · intro hguarded ns hns
    have hrun := running_run (fun i call _ => handle_drafting_follows i u call)
      (running_idle (show (drafting ι).inv ⟨db, []⟩ from hdb))
      (Pool.guarded_prefix hguarded hns)
    exact ⟨hrun.1, neverRejected hrun.1⟩
  · intro hruns
    refine Pool.guarded_of_writes (P := fun w => Publishable w.state) (handle_titled u) ?_
      (fun i r p hp => by cases hp) (fun _ _ _ => trivial) fun ns hns => (hruns ns hns).1
    intro i l w w' htitled hwrote hfits
    cases l with
    | createQuiz quiz questions fresh entry =>
      intro haction
      obtain ⟨title, hcopy⟩ := htitled haction
      have hmem := (Table.mem_insert (run_drafts hwrote.1).1).mpr (.inr rfl)
      have htitle := (validateQuiz_storedDraft.mp (hfits quiz hmem)).1
      rw [hcopy] at htitle
      exact ⟨title, hcopy, titleFits_copy.mp htitle⟩
    | _ => trivial

end Runs

section Copies

def sampleDraft (length : Nat) : SaveQuizRequest where
  classroomId := 3
  title := String.ofList (List.replicate length 'a')
  instructions := ""
  timeLimitMinutes := none
  questions := [{ id := none, kind := .trueFalse, prompt := "Is 7 prime?", options := []
                  canonicalAnswer := .bool true, maxPoints := 1, required := true }]

def sampleCopy (length : Nat) : List (Move Nat QuizCall) :=
  .start 0 ⟨sampleEnv 10, sampleTeacher, .create (sampleDraft length)⟩ ::
      List.replicate 4 (.advance 0) ++
    .start 1 ⟨sampleEnv 20, sampleTeacher, .duplicate 1000⟩ :: List.replicate 6 (.advance 1)

theorem drafts_publishable_iff_copy :
    (((Pool.idle sampleClassroom : QuizPool Nat).run (handle .asWritten)
      (sampleCopy 195)).world.state.quizzes.rows.map fun q => charCount q.title) = [195, 200] ∧
    ((Pool.idle sampleClassroom : QuizPool Nat).Guarded (handle .asWritten) (fun _ => True)
        (fun _ l _ => CopiesShortTitle l) (sampleCopy 195) ↔
      ∀ ns, ns <+: sampleCopy 195 →
        Publishable ((Pool.idle sampleClassroom : QuizPool Nat).run (handle .asWritten)
          ns).world.state ∧
        NeverRejected ((Pool.idle sampleClassroom : QuizPool Nat).run (handle .asWritten)
          ns).world.state) :=
  ⟨by decide +kernel, drafts_publishable_iff .asWritten sampleClassroom
    (fun q hq => by cases hq) (sampleCopy 195)⟩

/-- The copy of a quiz with a title of 196 characters cannot be published. -/
theorem copied_draft_not_publishable :
    let db := ((Pool.idle sampleClassroom : QuizPool Nat).run (handle .asWritten)
      (sampleCopy 196)).world.state
    (∃ q ∈ db.quizzes.rows, q.archivedAt = none ∧ teacherCanAccess db q.classroomId 2 = true ∧
      validateQuiz (storedDraft db q) ≠ .ok ()) ∧
    ((publishQuiz (sampleEnv 30) sampleTeacher 2000).exec db).1 =
      .error (.badRequest "Quiz title must contain 1–200 characters.") := by
  decide +kernel

end Copies

end Cinder.Quizzes
