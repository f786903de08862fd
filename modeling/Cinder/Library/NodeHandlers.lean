import Cinder.Host.HostAccess
import Cinder.Library.LibraryTables
import Cinder.Storage.SqlNumbers
set_option autoImplicit false

namespace Cinder.Library
open Cinder.Host Cinder.Storage Cinder.Programs Cinder.Programs.Program

structure CreateNodeRequest where
  parentId : Option Uuid
  classroomId : Option Uuid
  name : String
  kind : NodeKind
  icon : Option String := none
  deriving DecidableEq, Repr

/-- `parentId = some none` moves the node to the root. -/
structure UpdateNodeRequest where
  name : Option String := none
  parentId : Option (Option Uuid) := none
  position : Option Int := none
  icon : Option String := none
  deriving DecidableEq, Repr

def NodeKind.canHaveChildren : NodeKind → Bool
  | .folder => true
  | _ => false

/-- An empty ProseMirror document. -/
def emptyDoc : Json :=
  .obj (.cons "content" (.arr (.cons (.obj (.cons "type" (.str "paragraph") .nil)) .nil))
    (.cons "type" (.str "doc") .nil))

/-- Early return with `e` unless `ok`. -/
def ensure (ok : Bool) (e : HostError) : Except HostError Unit :=
  if ok then .ok () else .error e

theorem ensure_ok {ok : Bool} {e : HostError} {u : Unit} (h : ensure ok e = .ok u) :
    ok = true := by
  unfold ensure at h
  split at h
  · assumption
  · cases h

/-- Students may only touch their own nodes. -/
def assertPersonalWritable (node : NodeRow) (owner : Uuid) : Except HostError Unit :=
  ensure (node.ownerId = some owner) .forbidden

def assertWritable (school : Database) (node : NodeRow) (user : CurrentUser) :
    Except HostError Unit :=
  match node.ownerId with
  | some id => ensure (id = user.id) .forbidden
  | none =>
    ensure (user.role.isTeacher && node.classroomId.all fun c => teacherCanAccess school c user.id)
      .forbidden

def siblings (lib : LibraryTables) (parentId : Option Uuid) (owner : Uuid) : List NodeRow :=
  match parentId with
  | some parent => lib.nodes.rows.filter fun n => n.parentId = some parent
  | none => lib.nodes.rows.filter fun n => n.parentId.isNone && n.ownerId = some owner

/-- The released program does not check its sums for overflow. -/
def nextPosition (lib : LibraryTables) (parentId : Option Uuid) (owner : Uuid) : Int :=
  wrapI64 (((siblings lib parentId owner).map (·.position)).max?.getD 0 + positionStep)

/-- Walks up from `cursor`. Bounded so a pre-existing cycle in the data cannot
hang the request. -/
def wouldCreateCycle (lib : LibraryTables) (moving : Uuid) :
    Nat → Option Uuid → Except HostError Bool
  | 0, _ => .error (.other "node tree is deeper than 512 levels, refusing to walk it")
  | _+1, none => .ok false
  | n+1, some current =>
    if current = moving then .ok true
    else wouldCreateCycle lib moving n ((node? lib current).bind (·.parentId))

def onlyInFolder : HostError := .badRequest "You can only put things inside a folder."

def emptyName : HostError := .badRequest "Name cannot be empty."

/-! The transaction of `create_node`. -/

def insertNode (lib : LibraryTables) (node : NodeRow) : Option LibraryTables := do
  guard (node.ownerId.all fun id => (user? lib.school id).isSome)
  guard (node.parentId.all fun id => (node? lib id).isSome)
  guard (node.classroomId.all fun id => (classroom? lib.school id).isSome)
  let nodes ← lib.nodes.insert node
  return { lib with nodes }

def placed (lib : LibraryTables) (owner : Uuid) (node : NodeRow) : NodeRow :=
  { node with position := nextPosition lib node.parentId owner }

def createNodeTx (lib : LibraryTables) (owner : Uuid) (node : NodeRow) : Option LibraryTables := do
  let lib' ← insertNode lib (placed lib owner node)
  if node.kind = .note then insertNoteBody lib' ⟨node.id, emptyDoc, "", node.createdAt⟩
  else some lib'

/-! The transaction of `update_node`. Its `UPDATE`s change no key. -/

def updateNodeRow (lib : LibraryTables) (id : Uuid) (f : NodeRow → NodeRow)
    (hf : Table.KeepsKeys f) : LibraryTables :=
  { lib with nodes := lib.nodes.update (fun n => n.id = id) f hf }

def checkNewParent (lib : LibraryTables) (existing : NodeRow) (user : CurrentUser)
    (parentId : Uuid) : Except HostError Unit := do
  let parent ← (node? lib parentId).elim (.error (.notFound "node")) .ok
  assertWritable lib.school parent user
  ensure parent.kind.canHaveChildren onlyInFolder
  let cycle ← wouldCreateCycle lib existing.id 512 (some parentId)
  ensure (!cycle) (.badRequest "You cannot move a folder into itself.")
  ensure (parent.ownerId = existing.ownerId && parent.classroomId = existing.classroomId)
    (.badRequest "A folder and its contents must have the same owner and classroom.")

def moveNode (lib : LibraryTables) (existing : NodeRow) (user : CurrentUser) :
    Option (Option Uuid) → Except HostError LibraryTables
  | none => .ok lib
  | some newParent => do
    newParent.elim (.ok ()) (checkNewParent lib existing user)
    .ok (updateNodeRow lib existing.id (fun n => { n with parentId := newParent })
      fun _ _ => rfl)

def renameNode (lib : LibraryTables) (id : Uuid) : Option String → Except HostError LibraryTables
  | none => .ok lib
  | some name =>
    if trim name = "" then .error emptyName
    else .ok (updateNodeRow lib id (fun n => { n with name := trim name }) fun _ _ => rfl)

def reorderNode (lib : LibraryTables) (id : Uuid) : Option Int → LibraryTables
  | none => lib
  | some position => updateNodeRow lib id (fun n => { n with position }) fun _ _ => rfl

def changeIcon (lib : LibraryTables) (id : Uuid) : Option String → LibraryTables
  | none => lib
  | some icon => updateNodeRow lib id (fun n => { n with icon := some icon }) fun _ _ => rfl

/-- `existing` is the node as it was loaded before the transaction. -/
def updateNodeTx (lib : LibraryTables) (existing : NodeRow) (user : CurrentUser)
    (req : UpdateNodeRequest) (now : Time) : Except HostError LibraryTables := do
  let moved ← moveNode lib existing user req.parentId
  let renamed ← renameNode moved existing.id req.name
  let changed := changeIcon (reorderNode renamed existing.id req.position) existing.id req.icon
  let touched := updateNodeRow changed existing.id (fun n => { n with updatedAt := now })
    fun _ _ => rfl
  (node? touched existing.id).elim (.error (.notFound "node")) fun _ => .ok touched

inductive NodeStatement where
  | createNode (owner : Uuid) (node : NodeRow)
  | updateNode (existing : NodeRow) (user : CurrentUser) (req : UpdateNodeRequest) (now : Time)
  | deleteNode (id : Uuid)
  deriving DecidableEq, Repr

def NodeStatement.run : NodeStatement → LibraryTables → Except HostError LibraryTables
  | .createNode owner node, lib => stored (createNodeTx lib owner node)
  | .updateNode existing user req now, lib => updateNodeTx lib existing user req now
  | .deleteNode id, lib => .ok (deleteNodes lib [id])

instance : Engine LibraryTables NodeStatement HostError := ⟨NodeStatement.run⟩

abbrev NodeProgram := Program LibraryTables NodeStatement HostError

def loadNode (id : Uuid) : NodeProgram NodeRow := queryRow (fun lib => node? lib id) (.notFound "node")

def requireParent (user : CurrentUser) (req : CreateNodeRequest) : NodeProgram Unit :=
  match req.parentId with
  | none => pure ()
  | some parentId => do
    let parent ← loadNode parentId
    ofExcept (assertPersonalWritable parent user.id)
    require (parent.kind.canHaveChildren = true) onlyInFolder
    require (parent.classroomId = req.classroomId)
      (.badRequest "A folder and its contents must belong to the same classroom.")

def requireClassroom (user : CurrentUser) : Option Uuid → NodeProgram Unit
  | none => pure ()
  | some classroomId => do
    let allowed ← query fun lib =>
      if user.role.isTeacher then teacherCanAccess lib.school classroomId user.id
      else enrolled lib.school classroomId user.id
    require (allowed = true) .forbidden

/-- The row of a new node, but for its position. -/
def newNode (env : Env) (user : CurrentUser) (req : CreateNodeRequest) : NodeRow where
  id := env.uuid 0
  ownerId := some user.id
  parentId := req.parentId
  classroomId := req.classroomId
  name := trim req.name
  kind := req.kind
  icon := req.icon
  createdAt := env.now 0
  updatedAt := env.now 0

def createNode (env : Env) (user : CurrentUser) (req : CreateNodeRequest) :
    NodeProgram NodeRow := do
  require (trim req.name ≠ "") emptyName
  requireParent user req
  requireClassroom user req.classroomId
  executeReturning (.createNode user.id (newNode env user req))
    fun lib => placed lib user.id (newNode env user req)

def requireWritable (node : NodeRow) (user : CurrentUser) : NodeProgram Unit := do
  let allowed ← query fun lib => assertWritable lib.school node user
  ofExcept allowed

def updateNode (env : Env) (user : CurrentUser) (id : Uuid) (req : UpdateNodeRequest) :
    NodeProgram NodeRow := do
  let existing ← loadNode id
  requireWritable existing user
  let updated ← executeReturning (.updateNode existing user req (env.now 0)) fun lib =>
    (updateNodeTx lib existing user req (env.now 0)).toOption.bind fun lib' => node? lib' id
  ofExcept (updated.elim (.error (.notFound "node")) .ok)

def deleteNode (user : CurrentUser) (id : Uuid) : NodeProgram Unit := do
  let existing ← loadNode id
  requireWritable existing user
  execute (.deleteNode id)

end Cinder.Library
