import PageTemplates.Declarations

/-!
# Draining the queue

A job reads its location once, parses what was read and registers what it refers to.  A resource
that cannot be read or parsed is marked as failed, reported once, and stays empty.

* `Session.step`   the next job, if there is one;
* `Session.run`    jobs until the queue is empty; `none` if `fuel` jobs did not empty it.
-/

namespace PageTemplates.Session

def loadTemplate (env : Env) (s : Session) (t : Template) : Session :=
  let s := { s with reads := s.reads ++ [t.location] }
  match env.read t.location >>= fun source => env.parseMarkup source t.file with
  | .error e =>
    (s.mapCatalog (·.modifyTemplate t.id fun t => { t with status := .failed })).report t.file
      (.resource e)
  | .ok fragment =>
    Declarations.discover env ⟨t.id, t.location, t.isMain⟩ fragment
      (s.mapCatalog (·.modifyTemplate t.id fun t => { t with status := .loaded }))

def loadSheet (env : Env) (s : Session) (sheet : Sheet) : Session :=
  let s := { s with reads := s.reads ++ [sheet.location] }
  match env.read sheet.location with
  | .error e =>
    (s.finishSheet sheet.id sheet.location none).report sheet.file (.resource e)
  | .ok source =>
    let r := s.parseSheet env source sheet.file
    r.2.finishSheet sheet.id sheet.location r.1

def perform (env : Env) (s : Session) : Job → Session
  | .template id =>
    match s.catalog.templates[id]? with
    | some t => s.loadTemplate env t
    | none => s
  | .sheet id =>
    match s.catalog.sheets[id]? with
    | some sheet => s.loadSheet env sheet
    | none => s

def step (env : Env) (s : Session) : Option Session :=
  match s.queue with
  | [] => none
  | job :: queue => some ({ s with queue }.perform env job)

/-- the session after its last job -/
def run (env : Env) : (fuel : Nat) → Session → Option Session
  | 0, s => if s.queue.isEmpty then some s else none
  | fuel + 1, s =>
    match s.step env with
    | none => some s
    | some s' => run env fuel s'

end PageTemplates.Session
