import ChatDoc.Foundation.SerialTable

/-!
# The database schema

The tables of `db/schema.sql` that ingestion and its job queue work on.  A row
type has the columns that some statement of the program reads or returns; the
primary key is the key of the table that holds the row.

The constraints the schema declares are fields of `Database`: document names
are unique, and every chunk and every job references an existing document.  A
statement that would break one cannot be written, it has to fail instead.
-/

namespace ChatDoc

open Foundation

/-- Timestamps, in microseconds. -/
abbrev Time := Nat

def seconds (s : Nat) : Time := s * 1000000

inductive DocumentStatus where
  | processing
  | ready
  | failed
deriving DecidableEq

inductive Stage where
  | queued
  | reading
  | chunking
  | embedding
  | indexing
  | done
deriving DecidableEq

inductive JobStatus where
  | queued
  | processing
  | done
  | failed
deriving DecidableEq

inductive ChunkType where
  | table
  | prose
deriving DecidableEq

structure Document where
  userId : Option Nat
  docName : String
  displayName : Option String
  sourcePath : String
  pageCount : Nat
  status : DocumentStatus
  error : Option String
  stage : Option Stage
  stageCurrent : Nat
  stageTotal : Nat
  chunkCount : Nat
  createdAt : Time
deriving DecidableEq

/-- A chunk as the chunker yields it, before it has an embedding. -/
structure Chunk where
  pageNum : Nat
  chunkType : ChunkType
  text : String
  sectionHeader : Option String
  unitScale : Option String
  unitCurrency : Option String
  unitNote : Option String
  bbox : Option (Rat × Rat × Rat × Rat)
deriving DecidableEq

abbrev Embedding := List Rat

structure ChunkRow where
  documentId : Nat
  chunkIndex : Nat
  chunk : Chunk
  embedding : Embedding
deriving DecidableEq

structure Job where
  documentId : Nat
  docKey : String
  pdfPath : String
  status : JobStatus
  attempts : Nat
  maxAttempts : Nat
  visibleAt : Time
  lastError : Option String
  createdAt : Time
deriving DecidableEq

structure Database where
  documents : SerialTable Document
  chunks : SerialTable ChunkRow
  jobs : SerialTable Job
  docName_unique : forall {id id' : Nat} {r r' : Document},
    documents.lookup id = some r -> documents.lookup id' = some r' ->
      r.docName = r'.docName -> id = id'
  chunk_document : forall {id : Nat} {r : ChunkRow},
    chunks.lookup id = some r -> (documents.lookup r.documentId).isSome
  job_document : forall {id : Nat} {r : Job},
    jobs.lookup id = some r -> (documents.lookup r.documentId).isSome

namespace Database

def empty : Database where
  documents := .empty
  chunks := .empty
  jobs := .empty
  docName_unique := by
    intro id id' r r' h
    cases h
  chunk_document := by
    intro id r h
    cases h
  job_document := by
    intro id r h
    cases h

/-!
# Changes that keep the constraints

Every statement below is one of these changes, or leaves the database alone.
-/

section Changes

variable (db : Database)

def findDocument (docName : String) : Option (Nat × Document) :=
  db.documents.find? fun r => r.docName = docName

/-- Insert a document under a name that no row has. -/
def insertDocument (r : Document) (hname : db.findDocument r.docName = none) :
    Database where
  documents := db.documents.insert r
  chunks := db.chunks
  jobs := db.jobs
  docName_unique := by
    have hother : forall {id : Nat} {r' : Document},
        db.documents.lookup id = some r' -> r'.docName ≠ r.docName := by
      intro id r' hlookup
      simpa using SerialTable.find?_eq_none_iff.mp hname id r' hlookup
    intro id id' s s' hs hs' hnames
    rw [SerialTable.lookup_insert] at hs hs'
    split at hs <;> split at hs'
    · next hid hid' => rw [hid, hid']
    · cases hs
      exact absurd hnames.symm (hother hs')
    · cases hs'
      exact absurd hnames (hother hs)
    · exact db.docName_unique hs hs' hnames
  chunk_document := by
    intro id c hc
    rcases Option.isSome_iff_exists.mp (db.chunk_document hc) with ⟨d, hd⟩
    rw [SerialTable.lookup_insert_of_some hd]
    rfl
  job_document := by
    intro id j hj
    rcases Option.isSome_iff_exists.mp (db.job_document hj) with ⟨d, hd⟩
    rw [SerialTable.lookup_insert_of_some hd]
    rfl

def updateDocument (id : Nat) (f : Document -> Document)
    (hname : forall r, (f r).docName = r.docName) : Database where
  documents := db.documents.updateAt id f
  chunks := db.chunks
  jobs := db.jobs
  docName_unique := by
    have hold : forall {i : Nat} {r : Document},
        (db.documents.updateAt id f).lookup i = some r ->
          exists old, db.documents.lookup i = some old ∧
            old.docName = r.docName := by
      intro i r hr
      unfold SerialTable.updateAt at hr
      rw [SerialTable.lookup_update] at hr
      rcases Option.map_eq_some_iff.mp hr with ⟨old, hlookup, heq⟩
      refine ⟨old, hlookup, ?_⟩
      rw [← heq]
      split
      · exact (hname old).symm
      · rfl
    intro i i' r r' hr hr' hnames
    rcases hold hr with ⟨old, hlookup, heq⟩
    rcases hold hr' with ⟨old', hlookup', heq'⟩
    exact db.docName_unique hlookup hlookup' (by rw [heq, heq', hnames])
  chunk_document := by
    intro i c hc
    unfold SerialTable.updateAt
    rw [SerialTable.lookup_update, Option.isSome_map]
    exact db.chunk_document hc
  job_document := by
    intro i j hj
    unfold SerialTable.updateAt
    rw [SerialTable.lookup_update, Option.isSome_map]
    exact db.job_document hj

/-- Delete a document; its chunks and jobs go with it. -/
def deleteDocumentRow (documentId : Nat) : Database where
  documents := db.documents.delete fun id _ => id = documentId
  chunks := db.chunks.delete fun _ r => r.documentId = documentId
  jobs := db.jobs.delete fun _ r => r.documentId = documentId
  docName_unique := by
    intro id id' r r' hr hr'
    rw [SerialTable.lookup_delete] at hr hr'
    exact db.docName_unique (Option.filter_eq_some_iff.mp hr).left
      (Option.filter_eq_some_iff.mp hr').left
  chunk_document := by
    intro id r hr
    rw [SerialTable.lookup_delete] at hr
    rcases Option.filter_eq_some_iff.mp hr with ⟨hlookup, hne⟩
    rcases Option.isSome_iff_exists.mp (db.chunk_document hlookup) with ⟨d, hd⟩
    rw [SerialTable.lookup_delete, hd]
    simpa using hne
  job_document := by
    intro id r hr
    rw [SerialTable.lookup_delete] at hr
    rcases Option.filter_eq_some_iff.mp hr with ⟨hlookup, hne⟩
    rcases Option.isSome_iff_exists.mp (db.job_document hlookup) with ⟨d, hd⟩
    rw [SerialTable.lookup_delete, hd]
    simpa using hne

def insertChunkRow (r : ChunkRow)
    (hdocument : (db.documents.lookup r.documentId).isSome) : Database where
  documents := db.documents
  chunks := db.chunks.insert r
  jobs := db.jobs
  docName_unique := db.docName_unique
  chunk_document := by
    intro id c hc
    rw [SerialTable.lookup_insert] at hc
    split at hc
    · cases hc
      exact hdocument
    · exact db.chunk_document hc
  job_document := db.job_document

def deleteChunkRows (drop : ChunkRow -> Bool) : Database where
  documents := db.documents
  chunks := db.chunks.delete fun _ r => drop r
  jobs := db.jobs
  docName_unique := db.docName_unique
  chunk_document := by
    intro id c hc
    rw [SerialTable.lookup_delete] at hc
    exact db.chunk_document (Option.filter_eq_some_iff.mp hc).left
  job_document := db.job_document

def insertJob (r : Job)
    (hdocument : (db.documents.lookup r.documentId).isSome) : Database where
  documents := db.documents
  chunks := db.chunks
  jobs := db.jobs.insert r
  docName_unique := db.docName_unique
  chunk_document := db.chunk_document
  job_document := by
    intro id j hj
    rw [SerialTable.lookup_insert] at hj
    split at hj
    · cases hj
      exact hdocument
    · exact db.job_document hj

/-- Change jobs without moving them to another document. -/
def updateJobs (f : Nat -> Job -> Job)
    (hdocument : forall id r, (f id r).documentId = r.documentId) :
    Database where
  documents := db.documents
  chunks := db.chunks
  jobs := db.jobs.update f
  docName_unique := db.docName_unique
  chunk_document := db.chunk_document
  job_document := by
    intro id j hj
    rw [SerialTable.lookup_update] at hj
    rcases Option.map_eq_some_iff.mp hj with ⟨old, hlookup, heq⟩
    rw [← heq, hdocument]
    exact db.job_document hlookup

def updateJob (jobId : Nat) (f : Job -> Job)
    (hdocument : forall r, (f r).documentId = r.documentId) : Database :=
  db.updateJobs (fun id r => if id = jobId then f r else r) (by
    intro id r
    split
    · exact hdocument r
    · rfl)

end Changes

theorem lookup_deleteDocumentRow (db : Database) (documentId id : Nat) :
    (db.deleteDocumentRow documentId).documents.lookup id =
      if id = documentId then none else db.documents.lookup id := by
  show (db.documents.delete fun id _ => id = documentId).lookup id = _
  rw [SerialTable.lookup_delete]
  cases db.documents.lookup id with
  | none => simp
  | some d =>
      by_cases hid : id = documentId
      · simp [Option.filter, hid]
      · simp [Option.filter, hid]

theorem findDocument_of_lookup {db : Database} {id : Nat} {r : Document}
    (h : db.documents.lookup id = some r) :
    db.findDocument r.docName = some (id, r) := by
  apply SerialTable.find?_eq_some h
  · simp
  · intro id' r' hlookup htest
    exact db.docName_unique hlookup h (by simpa using htest)

theorem lookup_of_findDocument {db : Database} {docName : String} {id : Nat}
    {r : Document} (h : db.findDocument docName = some (id, r)) :
    db.documents.lookup id = some r ∧ r.docName = docName := by
  rcases SerialTable.lookup_of_find? h with ⟨hlookup, htest⟩
  exact ⟨hlookup, by simpa using htest⟩

theorem findDocument_eq_none_iff {db : Database} {docName : String} :
    db.findDocument docName = none <->
      forall id r, db.documents.lookup id = some r -> r.docName ≠ docName := by
  unfold findDocument
  rw [SerialTable.find?_eq_none_iff]
  simp

end Database
end ChatDoc
