import Convergence.Backend.Gate
import Convergence.Dict
/-!
# Source control

Repositories in memory.  A push adds files to a repository, which it makes if there is none; it can
be made to fail once.
-/

namespace Convergence

/-- Why a call of source control failed. -/
inductive SourceControlError where
  /-- There is no such repository. -/
  | repositoryNotFound (repo : String)
  /-- Any other failure. -/
  | failed (operation reason : String)
deriving DecidableEq, Repr

/-- The name of the kind of error. -/
def SourceControlError.kind : SourceControlError → String
  | .repositoryNotFound _ => "RepositoryNotFound"
  | .failed _ _ => "Failed"

/-- What went wrong, in words. -/
def SourceControlError.message : SourceControlError → String
  | .repositoryNotFound repo => "repository '" ++ repo ++ "' not found"
  | .failed operation reason => "source control '" ++ operation ++ "' failed: " ++ reason

/-- The contents of files by name. -/
abbrev ProjectFiles := Dict String

/-- A repository. -/
structure Repository where
  files : ProjectFiles := .empty
  /-- The messages of the commits, oldest first. -/
  commits : List String := []
  /-- What is called when the project changes. -/
  webhookUrl : Option String := none
deriving DecidableEq, Repr

/-- Repositories in memory. -/
structure SourceControl where
  repositories : Dict Repository := .empty
  gate : Gate SourceControlError := {}
  /-- What clone addresses start with. -/
  baseUrl : String := "https://git.local"

namespace SourceControl

/-- The address that a repository is cloned from. -/
def cloneAddress (s : SourceControl) (repo : String) : String := s.baseUrl ++ "/" ++ repo ++ ".git"

/-- The repository of a name. -/
def repository? (s : SourceControl) (repo : String) : Option Repository := s.repositories.find? repo

/-- Lets the next push fail. -/
def failNext (s : SourceControl) (e : SourceControlError) : SourceControl :=
  { s with gate := s.gate.failNext e }

/-- How often files were pushed. -/
def pushes (s : SourceControl) : Nat := s.gate.calls

/-- Commits files to a repository and registers its webhook; gives the clone address. -/
def push (s : SourceControl) (repo commit : String) (files : ProjectFiles) (webhookUrl : String) :
    Except SourceControlError String × SourceControl :=
  match s.gate.enter with
  | (some e, gate) => (.error e, { s with gate := gate })
  | (none, gate) =>
    let before := (s.repository? repo).getD {}
    let after : Repository :=
      { files := before.files.union files
        commits := before.commits ++ [commit]
        webhookUrl := some webhookUrl }
    (.ok (s.cloneAddress repo),
      { s with gate := gate, repositories := s.repositories.insert repo after })

/-- The clone address of a repository that exists. -/
def cloneUrl (s : SourceControl) (repo : String) : Except SourceControlError String :=
  if s.repositories.contains repo then .ok (s.cloneAddress repo)
  else .error (.repositoryNotFound repo)

end SourceControl

end Convergence
