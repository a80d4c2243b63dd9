import VideoPoster.Revision.Allocation

/-!
# When a semantic timeline is sound
-/

namespace VideoPoster.Revision
open Python Floating List Scene Boundary Cue

variable {A : Alphabet} {script : List Segment} {words : List Boundary} {seconds start : ℚ} {left : List Token}
  {pairs : List (Segment × Cue)} {scenes : List Scene} {cues : List Cue}

def Scene.window (scene : Scene) : ℚ × ℚ := (scene.start, scene.stop)

def Cue.interval (cue : Cue) : ℚ × ℚ := (cue.start, cue.stop)

def Alphabet.narrated (A : Alphabet) (script : List Segment) : List (List (List Char)) :=
  script.map fun segment => A.normalize segment.narration

structure SoundTimeline (A : Alphabet) (script : List Segment) (words : List Boundary) (seconds : ℚ)
    (scenes : List Scene) (cues : List Cue) : Prop where
  allWords : (A.narrated script).flatten = (words.map word).flatMap A.normalize
  segments : scenes.map sceneId = script.map Segment.id
  tiles : Tiles seconds 0 (scenes.map window)
  long : ∀ scene ∈ scenes, 1 / 4 < scene.stop - scene.start
  ordered : cues.Pairwise fun a b => a.stop ≤ b.start
  inside : List.Forall₂ (fun scene cue => Inside scene.window cue.interval) scenes cues
  unshared : Grouped A.normalize (words.map word) (A.narrated script)

theorem allocate_allocated (allocated : allocate A left script = .ok cues) :
    Allocated left (A.narrated script) (cues.map interval) := by
  induction script generalizing left cues with
  | nil =>
    simp only [allocate, bind_eq_ok, require_eq_ok, pure_eq_ok, length_eq_zero_iff] at allocated
    obtain ⟨_, rfl, rfl⟩ := allocated
    exact .nil
  | cons segment rest ih =>
    simp only [allocate] at allocated
    split at allocated
    · rename_i first last head final
      simp only [bind_eq_ok, require_eq_ok, pure_eq_ok] at allocated
      obtain ⟨_, same, later, tail, rfl⟩ := allocated
      have chunk := Allocated.of_take head final (ih tail)
      rw [same] at chunk
      exact chunk
    · cases allocated

theorem lt_of_long {x y : ℚ} (apart : 1 / 4 < binary64.nearest (y - x)) : 1 / 4 < y - x := by
  by_contra short
  have least : binary64.nearest (y - x) ≤ binary64.nearest (1 / 4) := Format.nearest_mono (not_lt.mp short)
  rw [show binary64.nearest (1 / 4) = 1 / 4 by decide +kernel] at least
  linarith

theorem scenesFrom_windows (made : scenesFrom seconds start pairs = .ok scenes) : scenes.map window = windows
    seconds start (pairs.map fun pair => pair.2.interval) ∧ ∀ scene ∈ scenes, 1 / 4 < scene.stop - scene.start := by
  induction pairs generalizing start scenes with
  | nil =>
    cases made
    exact ⟨rfl, by simp⟩
  | cons pair rest ih =>
    simp only [scenesFrom, bind_eq_ok, require_eq_ok, pure_eq_ok] at made
    obtain ⟨_, ⟨apart, -⟩, later, made, rfl⟩ := made
    obtain ⟨same, long⟩ := ih made
    refine ⟨?_, forall_mem_cons.mpr ⟨lt_of_long apart, long⟩⟩
    rw [map_cons, same]
    cases rest <;> rfl

/-- The timeline is sound exactly if there is a segment, segments end where events end, and no word ends after the
audio. -/
theorem soundTimeline_iff (accepted : semanticTimeline A script words (some seconds) = .ok (scenes, cues)) :
    SoundTimeline A script words seconds scenes cues ↔ script ≠ [] ∧ Aligned A.normalize (words.map word) (A.narrated
    script) ∧ ∀ boundary ∈ words, A.normalize boundary.word ≠ [] → ∀ stop ∈ boundary.stop, stop ≤ seconds := by
  obtain ⟨_, spoken, ⟨⟩, positive, -, read, allocated, made⟩ := semanticTimeline_eq_ok accepted
  have length := allocate_length allocated
  have pieces := allocate_allocated allocated
  obtain ⟨rfl, order, after⟩ := readBoundaries_order read
  obtain ⟨same, long⟩ := scenesFrom_windows made
  have cued : (script.zip cues).map (fun pair => pair.2.interval) = cues.map interval := by
    calc (script.zip cues).map (fun pair => pair.2.interval) = ((script.zip cues).map Prod.snd).map interval := by
          rw [map_map]
          rfl
      _ = cues.map interval := by rw [map_snd_zip length.le]
  rw [cued] at same
  have named : (spoken.map fun word => (⟨word.word, some word.start, some word.stop⟩ : Boundary)).map word =
      spoken.map Spoken.word := by simp
  have flat : (A.narrated script).flatten = (spoken.map Spoken.word).flatMap A.normalize :=
    pieces.flatten.trans tokensOf_texts
  rw [named]
  constructor
  · intro sound
    refine ⟨?_, named ▸ sound.unshared.aligned, ?_⟩
    · rintro rfl
      have empty := sound.segments
      have tiles := sound.tiles
      rw [map_nil, map_eq_nil_iff] at empty
      rw [empty] at tiles
      exact positive.ne tiles
    · simp only [forall_mem_map]
      rintro word member spelled _ ⟨⟩
      obtain ⟨text, letters⟩ := exists_mem_of_ne_nil _ spelled
      obtain ⟨interval, listed, ends⟩ := pieces.stops order.stops _ (mem_tokensOf.2 ⟨word, member, text, letters, rfl⟩)
      obtain ⟨cue, cued, rfl⟩ := mem_map.mp listed
      obtain ⟨scene, shown, -, within⟩ := exists_of_forall₂ sound.inside cue cued
      have lasting : ∀ window ∈ scenes.map Scene.window, window.1 < window.2 := by
        simp only [forall_mem_map]
        intro scene member
        have := sound.long scene member
        simp only [window]
        linarith
      exact ends.trans (within.trans ((sound.tiles.within lasting).2 _ (mem_map_of_mem shown)))
  · rintro ⟨segments, aligned, within⟩
    have nonempty : cues.map interval ≠ [] := by
      rw [ne_eq, map_eq_nil_iff, ← length_eq_zero_iff, length, length_eq_zero_iff]
      exact segments
    have ordered := pieces.ordered order rfl (aligned_map.1 aligned)
    refine ⟨by rw [named, flat], ?_, ?_, long, pairwise_map.mp ordered, ?_, ?_⟩
    · calc scenes.map sceneId = ((script.zip cues).map Prod.fst).map Segment.id :=
            (scenesFrom_ids made).trans map_map.symm
        _ = script.map Segment.id := by rw [map_fst_zip length.ge]
    · rw [same]
      exact tiles_windows nonempty
    · have each := @inside_windows (cues.map interval) seconds 0 ordered.isChain ?_ ?_
      · rw [← same, forall₂_map_left_iff, forall₂_map_right_iff] at each
        exact each
      · intro interval head
        obtain ⟨⟨token, begins, start⟩, -⟩ := pieces.borders interval (mem_of_mem_head? head)
        obtain ⟨word, member, _, -, rfl⟩ := mem_tokensOf.1 begins
        exact start ▸ (after word member).1
      · intro interval member
        obtain ⟨-, token, ends, stop⟩ := pieces.borders interval member
        obtain ⟨word, member, text, letters, rfl⟩ := mem_tokensOf.1 ends
        exact stop ▸ within _ (mem_map_of_mem member) (ne_nil_of_mem letters) _ rfl
    · rw [named]
      exact aligned.grouped (by simpa [Alphabet.narrated] using segments) flat

def twoSegments : List Segment := [⟨"a", "One two.", [], "Look up", []⟩, ⟨"b", "Three.", [], "Look down", []⟩]

def twoEvents (first second : String) : List Boundary :=
  [⟨first, some 0, some (3 / 8)⟩, ⟨second, some (3 / 8), some (3 / 4)⟩]

theorem twoEvents_accepted {first second : String} (passed : (semanticTimeline sampleAlphabet twoSegments
    (twoEvents first second) (some (3 / 4))).isOk = true) : ∃ scenes cues,
      semanticTimeline sampleAlphabet twoSegments (twoEvents first second) (some (3 / 4)) = .ok (scenes, cues) := by
  cases made : semanticTimeline sampleAlphabet twoSegments (twoEvents first second) (some (3 / 4)) with
  | ok value => exact ⟨value.1, value.2, rfl⟩
  | error error =>
    rw [made] at passed
    cases passed

theorem aligned_events_sound : ∃ scenes cues,
    SoundTimeline sampleAlphabet twoSegments (twoEvents "One two" "three") (3 / 4) scenes cues := by
  obtain ⟨scenes, cues, accepted⟩ := @twoEvents_accepted "One two" "three" (by decide +kernel)
  have grouped : Grouped sampleAlphabet.normalize ["One two", "three"] (sampleAlphabet.narrated twoSegments) :=
    ⟨[["One two"], ["three"]], rfl, by decide⟩
  refine ⟨scenes, cues, (soundTimeline_iff accepted).mpr ⟨by simp [twoSegments], grouped.aligned, ?_⟩⟩
  rintro boundary member - stop ends
  simp only [twoEvents, mem_cons, not_mem_nil, or_false] at member
  rcases member with rfl | rfl <;> cases ends <;> norm_num

/-- The second event holds words of both segments, and the first cue ends after the second one has begun. -/
theorem shared_event_overlaps : ∃ scenes cues,
    semanticTimeline sampleAlphabet twoSegments (twoEvents "One" "two three") (some (3 / 4)) = .ok (scenes, cues) ∧
      ¬ cues.Pairwise fun a b => a.stop ≤ b.start := by
  obtain ⟨scenes, cues, accepted⟩ := @twoEvents_accepted "One" "two three" (by decide +kernel)
  refine ⟨scenes, cues, accepted, ?_⟩
  have overlapping : ((semanticTimeline sampleAlphabet twoSegments (twoEvents "One" "two three")
      (some (3 / 4))).toOption.any fun made => decide (made.2.Pairwise fun a b => a.stop ≤ b.start)) = false := by
    decide +kernel
  rw [accepted] at overlapping
  simpa [Except.toOption] using overlapping

end VideoPoster.Revision
