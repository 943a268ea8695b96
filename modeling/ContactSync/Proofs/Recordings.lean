/-
What a row of recordings leaves.

A tracker takes changes one at a time, or the entries of another tracker below a path. What it keeps is shorter: entries
are dropped, written into others, and stand at old positions. Nothing is lost (`replay_takeAll`): over every tree its
entries write what the recordings write one after another.
-/
import ContactSync.Changes.Difference
import ContactSync.Proofs.Places
import ContactSync.Proofs.Replay

namespace ContactSync

open Dotted (Plain)

/-! ## Recordings -/

/-- what a tracker is given at once -/
inductive Recording where
  | change (path : String) (value : Json)
  | merge (path : String) (other : Tracker)

def Recording.changes : Recording → List (String × Json)
  | .change path value => [(path, value)]
  | .merge path other => other.entries.map fun e => (Dotted.join path e.1, e.2)

namespace Tracker

def take (t : Tracker) : Recording → Tracker
  | .change path value => t.record path value
  | .merge path other => t.merge path other

def takeAll (t : Tracker) (recordings : List Recording) : Tracker :=
  recordings.foldl take t

theorem take_eq_recordAll (t : Tracker) (r : Recording) : t.take r = t.recordAll r.changes := by
  cases r <;> rfl

theorem takeAll_eq_recordAll (t : Tracker) (recordings : List Recording) :
    t.takeAll recordings = t.recordAll (recordings.flatMap Recording.changes) := by
  induction recordings generalizing t with
  | nil => rfl
  | cons r recordings ih =>
    calc
      _ = (t.take r).takeAll recordings := rfl
      _ = (t.recordAll r.changes).recordAll (recordings.flatMap Recording.changes) := by
        rw [ih, take_eq_recordAll]
      _ = t.recordAll (r.changes ++ recordings.flatMap Recording.changes) := List.foldl_append.symm

/-! ## Their replay -/

/-- a tracker of changes replays what they write, over every tree -/
theorem same_replay_ofChanges {changes : Tree} (hc : ∀ c ∈ changes, Plain c.1 ∧ c.2.WellFormed) {base : Tree}
    (hb : base.WellFormed) : ((ofChanges changes).replay base).same (Tree.setAllDotted base changes) = true := by
  obtain ⟨hsound, hreplay⟩ := outline_replay_recordAll sound_empty hc base
  have hwritten := Tree.outline_setAllDotted (fun c h => (hc c h).1.1) base
  refine Tree.same_of_outline (wellFormed_replay hsound hb) (hb.setAllDotted fun c h => (hc c h).2) ?_
  rw [hwritten]
  exact hreplay

/-- **Recording loses nothing.** A tracker that a row of changes has made, and that has taken any recordings since,
replays over every tree what all of them write one after another; over nothing too. -/
theorem replay_takeAll {made : Tree} {recordings : List Recording}
    (hc : ∀ c ∈ made ++ recordings.flatMap Recording.changes, Plain c.1 ∧ c.2.WellFormed) :
    let t := (ofChanges made).takeAll recordings
    let changes := made ++ recordings.flatMap Recording.changes
    (∀ base : Tree, base.WellFormed → (t.replay base).same (Tree.setAllDotted base changes) = true) ∧
      t.resolve.same (Tree.setAllDotted [] changes) = true := by
  intro t changes
  have ht : t = ofChanges changes := by
    rw [show t = _ from takeAll_eq_recordAll _ _, ofChanges, ofChanges, recordAll, recordAll, recordAll,
      ← List.foldl_append]
  rw [ht]
  exact ⟨fun base hb => same_replay_ofChanges hc hb, same_replay_ofChanges hc Tree.wellFormed_nil⟩

/-- a change below a clearing, above it, and into what it then holds; a difference merged below all of them -/
theorem replay_takeAll_overlapping :
    let made : Tree := [("base", .null), ("base.fax", .string "1"), ("tags.auto", .list [])]
    let recordings : List Recording :=
      [.change "base" (.object [("fax", .bool true)]), .change "base.geo.lat" (.number (.integer 4)),
        .merge "base" (.difference [("fax", .bool true)] [("mail", .string "x")])]
    let t := (ofChanges made).takeAll recordings
    let changes := made ++ recordings.flatMap Recording.changes
    t.entries = [("base", .object [("fax", .null), ("geo", .object [("lat", .number (.integer 4))]),
      ("mail", .string "x")]), ("tags.auto", .list [])] ∧
    (∀ c ∈ changes, Plain c.1 ∧ c.2.WellFormed) ∧
    (∀ base : Tree, base.WellFormed → (t.replay base).same (Tree.setAllDotted base changes) = true) ∧
      t.resolve.same (Tree.setAllDotted [] changes) = true :=
  ⟨rfl, by decide, replay_takeAll (by decide)⟩

end Tracker

end ContactSync
