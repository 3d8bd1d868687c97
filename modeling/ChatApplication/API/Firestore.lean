import Mathlib.Data.List.AList
import Mathlib.Data.String.Basic
import ChatApplication.Model.Document
import ChatApplication.Order.SortBy

/-!
This module contains the part of Firestore that the program relies on: documents under a collection
and a document id, `setData`, `getDocument` and the queries of `DatabaseManager`.
-/

namespace ChatApplication

abbrev DocumentID := String

inductive CollectionPath where
  | users
  -- the subcollection `users/{uid}/recent-users`
  | recentUsers (uid : DocumentID)
  | messages
  deriving DecidableEq, Repr

structure Path where
  collection : CollectionPath
  documentID : DocumentID
  deriving DecidableEq, Repr

structure DocumentSnapshot where
  documentID : DocumentID
  data : Dictionary
  deriving DecidableEq, Repr

abbrev Firestore := AList (fun _ : Path => Dictionary)

namespace Firestore

-- `setData` without `merge` replaces the whole document
def setData (db : Firestore) (path : Path) (data : Dictionary) : Firestore :=
  AList.insert path data db

def getDocument (db : Firestore) (path : Path) : Option Dictionary :=
  db.lookup path

def getDocuments (db : Firestore) (collection : CollectionPath) : List DocumentSnapshot :=
  db.entries.filterMap (fun entry =>
    if entry.1.collection = collection then some ⟨entry.1.documentID, entry.2⟩ else none)

@[simp]
theorem getDocument_empty (path : Path) : getDocument ∅ path = none := by
  unfold getDocument
  apply AList.lookup_empty

@[simp]
theorem getDocument_setData_self (db : Firestore) (path : Path) (data : Dictionary)
    : (db.setData path data).getDocument path = some data := by
  unfold getDocument setData
  apply AList.lookup_insert

theorem getDocument_setData_of_ne (db : Firestore) {path path' : Path} (data : Dictionary)
    (h : path' ≠ path) : (db.setData path data).getDocument path' = db.getDocument path' := by
  unfold getDocument setData
  exact AList.lookup_insert_ne h

theorem getDocument_setData (db : Firestore) (path path' : Path) (data : Dictionary)
    : (db.setData path data).getDocument path'
        =
      if path' = path then some data else db.getDocument path' := by
  split
  . next h =>
    rw [h, getDocument_setData_self]
  . next h =>
    rw [getDocument_setData_of_ne db data h]

theorem mem_getDocuments {db : Firestore} {collection : CollectionPath} {doc : DocumentSnapshot}
    : doc ∈ db.getDocuments collection
        ↔
      db.getDocument ⟨collection, doc.documentID⟩ = some doc.data := by
  unfold getDocuments getDocument
  rw [List.mem_filterMap, ← Option.mem_def, AList.mem_lookup_iff]
  constructor
  . rintro ⟨⟨⟨collection', documentID⟩, data⟩, hmem, hentry⟩
    dsimp at hentry
    split at hentry
    . next hcollection =>
      injection hentry with hentry
      rw [← hentry, ← hcollection]
      exact hmem
    . contradiction
  . intro hmem
    refine ⟨_, hmem, ?_⟩
    simp

theorem nodup_documentID_getDocuments (db : Firestore) (collection : CollectionPath)
    : ((db.getDocuments collection).map DocumentSnapshot.documentID).Nodup := by
  have hkeys := db.nodupKeys
  rw [List.nodupKeys_iff_pairwise] at hkeys
  unfold getDocuments
  rw [List.Nodup, List.pairwise_map, List.pairwise_filterMap]
  apply hkeys.imp
  intro entry entry' hne document hdocument document' hdocument' heq
  rw [Option.ite_none_right_eq_some] at hdocument hdocument'
  rcases hdocument with ⟨hcollection, hdocument⟩
  rcases hdocument' with ⟨hcollection', hdocument'⟩
  injection hdocument with hdocument
  injection hdocument' with hdocument'
  rw [← hdocument, ← hdocument'] at heq
  apply hne
  rw [Path.mk.injEq] at *
  exact ⟨hcollection.trans hcollection'.symm, heq⟩

theorem getDocuments_perm_cons {db db' : Firestore} {collection : CollectionPath}
    {document : DocumentSnapshot} (hnew : db.getDocument ⟨collection, document.documentID⟩ = none)
    (hset : db'.getDocument ⟨collection, document.documentID⟩ = some document.data)
    (hold : ∀ documentID, documentID ≠ document.documentID →
      db'.getDocument ⟨collection, documentID⟩ = db.getDocument ⟨collection, documentID⟩)
    : (db'.getDocuments collection).Perm (document :: db.getDocuments collection) := by
  have hnotMem : document ∉ db.getDocuments collection := by
    rw [mem_getDocuments, hnew]
    simp
  have hnodup := List.Nodup.of_map _ (nodup_documentID_getDocuments db collection)
  have hnodup' := List.Nodup.of_map _ (nodup_documentID_getDocuments db' collection)
  rw [List.perm_ext_iff_of_nodup hnodup' (List.nodup_cons.mpr ⟨hnotMem, hnodup⟩)]
  intro other
  rw [List.mem_cons, mem_getDocuments, mem_getDocuments]
  by_cases hid : other.documentID = document.documentID
  . rw [hid, hset, hnew]
    constructor
    . intro hdata
      injection hdata with hdata
      exact Or.inl (congrArg₂ DocumentSnapshot.mk hid hdata.symm)
    . intro h
      cases h with
      | inl h => rw [h]
      | inr h => contradiction
  . rw [hold _ hid]
    constructor
    . exact Or.inr
    . intro h
      cases h with
      | inl h =>
        rw [h] at hid
        contradiction
      | inr h => exact h

end Firestore

-- Queries order values of different types by type. A `Date` is stored as a timestamp.
def FieldValue.orderKey : FieldValue → Nat ×ₗ Int ×ₗ String
  | .null => toLex (0, toLex (0, ""))
  | .bool value => toLex (1, toLex (if value then 1 else 0, ""))
  | .timestamp value | .date value => toLex (2, toLex (value, ""))
  | .string value => toLex (3, toLex (0, value))

namespace DocumentSnapshot

-- Firestore breaks ties between timestamps by document id.
def queryKey (doc : DocumentSnapshot) : (Nat ×ₗ Int ×ₗ String) ×ₗ DocumentID :=
  toLex (((doc.data.lookup "timestamp").getD .null).orderKey, doc.documentID)

-- `whereField(field, isEqualTo: value)`
def whereField (field : String) (value : FieldValue) (docs : List DocumentSnapshot)
    : List DocumentSnapshot :=
  docs.filter (fun doc => doc.data.lookup field = some value)

-- `order(by: "timestamp")` leaves out the documents that have no such field.
def orderByTimestamp (docs : List DocumentSnapshot) : List DocumentSnapshot :=
  (docs.filter (fun doc => (doc.data.lookup "timestamp").isSome)).sortBy queryKey

def orderByTimestampDescending (docs : List DocumentSnapshot) : List DocumentSnapshot :=
  (docs.filter (fun doc => (doc.data.lookup "timestamp").isSome)).sortBy
    (fun doc => OrderDual.toDual (queryKey doc))

@[simp]
theorem mem_whereField {field : String} {value : FieldValue} {docs : List DocumentSnapshot}
    {doc : DocumentSnapshot}
    : doc ∈ whereField field value docs ↔ doc ∈ docs ∧ doc.data.lookup field = some value := by
  simp [whereField]

@[simp]
theorem mem_orderByTimestamp {docs : List DocumentSnapshot} {doc : DocumentSnapshot}
    : doc ∈ orderByTimestamp docs
        ↔
      doc ∈ docs ∧ (doc.data.lookup "timestamp").isSome := by
  simp [orderByTimestamp]

@[simp]
theorem mem_orderByTimestampDescending {docs : List DocumentSnapshot} {doc : DocumentSnapshot}
    : doc ∈ orderByTimestampDescending docs
        ↔
      doc ∈ docs ∧ (doc.data.lookup "timestamp").isSome := by
  simp [orderByTimestampDescending]

theorem timestamp_le_of_queryKey_le {a b : DocumentSnapshot} {timestamp timestamp' : Timestamp}
    (ha : a.data.lookup "timestamp" = some (.timestamp timestamp))
    (hb : b.data.lookup "timestamp" = some (.timestamp timestamp'))
    (h : a.queryKey ≤ b.queryKey) : timestamp ≤ timestamp' := by
  have hkey := Prod.Lex.monotone_fst _ _ h
  simp only [queryKey, ha, hb, Option.getD_some, FieldValue.orderKey, ofLex_toLex] at hkey
  rw [Prod.Lex.toLex_le_toLex] at hkey
  cases hkey with
  | inl hlt => exact absurd hlt (Nat.lt_irrefl 2)
  | inr hle => exact Prod.Lex.monotone_fst _ _ hle.right

theorem eq_of_queryKey_eq {documents : List DocumentSnapshot}
    (hnodup : (documents.map DocumentSnapshot.documentID).Nodup)
    : ∀ a ∈ documents, ∀ b ∈ documents, a.queryKey = b.queryKey → a = b := by
  intro a ha b hb hkey
  have hid : a.documentID = b.documentID := by
    exact congrArg (fun key => (ofLex key).2) hkey
  exact List.inj_on_of_nodup_map hnodup ha hb hid

end DocumentSnapshot

end ChatApplication
