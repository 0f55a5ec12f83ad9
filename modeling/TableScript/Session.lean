import TableScript.Pipeline
import TableScript.Document.Json

/-!
# Sessions

A cache of pipelines, one a session. Whoever asks with the same fingerprint gets the session's pipeline
with its log; another fingerprint starts a new pipeline in its place. Pipelines are known by their number
in the order in which they were made, so whoever holds one still has it when its session has moved on.

The fingerprint of a workbook is its JSON text.
-/

namespace TableScript

/-- A session: the fingerprint its pipeline was made for, and the pipeline's number. -/
structure Session where
  fingerprint : String
  pipeline : Nat
deriving DecidableEq

/-- The sessions by key, and all pipelines that were made. -/
structure SessionCache where
  sessions : Keyed Session
  pipelines : List Pipeline

namespace SessionCache

/-- No sessions. -/
def empty : SessionCache := ⟨[], []⟩

/-- The session of that key, if it was made for the fingerprint. -/
def current? (cache : SessionCache) (key fingerprint : String) : Option Nat :=
  match cache.sessions.get? key with
  | some session => if session.fingerprint = fingerprint then some session.pipeline else none
  | none => none

/-- The number of the session's pipeline, which is made if there is none for the fingerprint. -/
def getOrCreate (cache : SessionCache) (key fingerprint : String) (fresh : Pipeline) :
    Nat × SessionCache :=
  match cache.current? key fingerprint with
  | some n => (n, cache)
  | none =>
    let n := cache.pipelines.length
    (n, ⟨cache.sessions.put key ⟨fingerprint, n⟩, cache.pipelines ++ [fresh]⟩)

/-- Drop a session. -/
def invalidate (cache : SessionCache) (key : String) : Bool × SessionCache :=
  (cache.sessions.has key, { cache with sessions := cache.sessions.erase key })

/-- Put a changed pipeline in the place of the old one. -/
def update (cache : SessionCache) (n : Nat) (p : Pipeline) : SessionCache :=
  { cache with pipelines := cache.pipelines.set n p }

end SessionCache

/-- The fingerprint of a workbook. -/
def Workbook.fingerprint (w : Workbook) : String := (Document.Json.ofWorkbook w).compact

end TableScript
