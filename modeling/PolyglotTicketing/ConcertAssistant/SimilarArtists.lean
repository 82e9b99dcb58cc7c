import PolyglotTicketing.ConcertAssistant.Validation
import PolyglotTicketing.ConcertAssistant.VectorRepository

/-!
# Whom an answer about similar artists is about

`Answers` is what a search for the artists similar to a name has to return. The repository takes an
empty result for a name without a profile, and joins the profiles of other artists with each profile
that has the name in some letter case. `answers_iff` says for which profiles this comes to the same.
-/

namespace ConcertAssistant

open Relational

namespace ArtistProfileRepository

variable {E D : Type} [LinearOrder D]
variable (database : VectorDatabase E D) (profiles : Relational.Table (ArtistProfile E))
  (artistName : String) (limit : ℕ)

/-- The rows are the other artists nearest to the one asked for. -/
structure Nearest (rows : List (SimilarArtist D)) : Prop where
  length_le : rows.length ≤ limit
  distinct : (rows.map SimilarArtist.artist).Nodup
  others : ∀ row ∈ rows, database.lower row.artist ≠ database.lower artistName
  ordered : rows.Pairwise fun row row' => row.distance ≤ row'.distance
  /-- The distance is that to a profile of the artist asked for. -/
  compared : ∀ row ∈ rows, ∃ profile ∈ profiles.rows, ∃ s ∈ source database profiles artistName,
    row = select database ⟨profile, s⟩
  complete : rows.length < limit → ∀ profile ∈ profiles.rows, ¬Named database artistName profile →
    profile.artist ∈ rows.map SimilarArtist.artist

/-- The result is about the artist asked for. -/
structure Answers (result : Except ArtistNotFoundError (List (SimilarArtist D))) : Prop where
  notFound : (∃ e, result = .error e) ↔
    ∀ profile ∈ profiles.rows, ¬Named database artistName profile
  nearest : ∀ rows, result = .ok rows → Nearest database profiles artistName limit rows

/-- The pairs of a profile of another artist and one of the name that are nearer than `profile` and
`s'`, and the pair of `profile` and `s`. -/
def rivals (profile s s' : ArtistProfile E) : List (ArtistProfile E × ArtistProfile E) :=
  (profiles.rows ×ˢ profiles.rows).filter fun pair => decide <|
    (¬Named database artistName pair.1 ∧ Named database artistName pair.2) ∧
      (database.distance pair.1.embedding pair.2.embedding <
          database.distance profile.embedding s'.embedding ∨
        pair.1.artist = profile.artist ∧ pair.2.artist = s.artist)

/-- The profiles tell apart a name without a profile and an artist without others. Of two pairs of
one artist with different profiles of the name, the one that is not nearer comes after at least
`limit` pairs, so that it is not returned. -/
structure Discerning : Prop where
  other : (∃ profile ∈ profiles.rows, Named database artistName profile) →
    ∃ profile ∈ profiles.rows, ¬Named database artistName profile
  ahead : ∀ profile ∈ profiles.rows, ∀ s ∈ profiles.rows, ∀ s' ∈ profiles.rows,
    ¬Named database artistName profile → Named database artistName s →
      Named database artistName s' → s.artist ≠ s'.artist →
        database.distance profile.embedding s.embedding ≤
          database.distance profile.embedding s'.embedding →
        limit ≤ (rivals database profiles artistName profile s s').length

variable {database profiles artistName limit} {tie : ProfilePair E → ℕ}

omit [LinearOrder D] in
theorem mem_source {s : ArtistProfile E} : s ∈ source database profiles artistName ↔
    s ∈ profiles.rows ∧ Named database artistName s := by
  simp [source]

omit [LinearOrder D] in
theorem mem_joined {pair : ProfilePair E} : pair ∈ (joined database profiles artistName).rows ↔
    (pair.profile ∈ profiles.rows ∧ ¬Named database artistName pair.profile) ∧
      pair.source ∈ source database profiles artistName := by
  constructor
  · intro h
    obtain ⟨⟨p, s⟩, hmem, rfl⟩ := List.mem_map.mp h
    obtain ⟨hproduct, hdiffer⟩ := List.mem_filter.mp hmem
    obtain ⟨hp, hs⟩ := List.mem_product.mp hproduct
    have hnamed : Named database artistName s := (mem_source.mp hs).2
    -- Both have the name in small letters, if their names are the same in small letters.
    refine ⟨⟨hp, fun hsame => ?_⟩, hs⟩
    exact of_decide_eq_true hdiffer (hsame.trans hnamed.symm)
  · rintro ⟨⟨hp, hother⟩, hs⟩
    have hnamed : Named database artistName pair.source := (mem_source.mp hs).2
    refine List.mem_map.mpr ⟨(pair.profile, pair.source), List.mem_filter.mpr ⟨?_, ?_⟩, rfl⟩
    · exact List.mem_product.mpr ⟨hp, hs⟩
    · exact decide_eq_true fun hsame => hother (hsame.trans hnamed)

/-- As many pairs come before a pair in the query as there are rivals. -/
theorem length_ahead_joined (profile s s' : ArtistProfile E) :
    ((joined database profiles artistName).ahead (distance database)
      ⟨profile, s⟩ ⟨profile, s'⟩).length =
      (rivals database profiles artistName profile s s').length := by
  have hrows : profiles.rows.Nodup := profiles.nodup.of_map key
  have hinj : Function.Injective fun pair : ProfilePair E => (pair.profile, pair.source) := by
    rintro ⟨p, q⟩ ⟨p', q'⟩ heq
    obtain ⟨rfl, rfl⟩ := Prod.mk.inj heq
    rfl
  -- Both lists have each of their pairs once, and they have the same ones.
  have hperm : (((joined database profiles artistName).ahead (distance database)
      ⟨profile, s⟩ ⟨profile, s'⟩).map fun pair => (pair.profile, pair.source)).Perm
      (rivals database profiles artistName profile s s') := by
    have hjoined : (joined database profiles artistName).rows.Nodup :=
      (joined database profiles artistName).nodup.of_map key
    refine (List.perm_ext_iff_of_nodup ((hjoined.filter _).map hinj)
      ((hrows.product hrows).filter _)).mpr fun pair => ?_
    obtain ⟨q, u⟩ := pair
    simp only [List.mem_map, List.mem_filter, mem_joined, mem_source, decide_eq_true_eq,
      List.mem_product]
    constructor
    · rintro ⟨⟨q, u⟩, ⟨⟨⟨hq, hother⟩, hu, hname⟩, hahead⟩, heq⟩
      obtain ⟨rfl, rfl⟩ := Prod.mk.inj heq
      exact ⟨⟨hq, hu⟩, ⟨hother, hname⟩, hahead.imp_right Prod.mk.inj⟩
    · rintro ⟨⟨hq, hu⟩, ⟨hother, hname⟩, hahead⟩
      refine ⟨⟨q, u⟩, ⟨⟨⟨hq, hother⟩, hu, hname⟩, hahead.imp_right fun hkey => ?_⟩, rfl⟩
      exact Prod.ext hkey.1 hkey.2
  rw [← hperm.length_eq, List.length_map]

/-- The query returns nothing if there is nobody to compare, or nobody to compare with. -/
theorem query_eq_nil_iff (hlimit : 1 ≤ limit) :
    query database profiles artistName limit tie = [] ↔
      (∀ profile ∈ profiles.rows, ¬Named database artistName profile) ∨
        ∀ profile ∈ profiles.rows, Named database artistName profile := by
  have hempty : query database profiles artistName limit tie = [] ↔
      (joined database profiles artistName).rows = [] := by
    rw [query, List.map_eq_nil_iff, List.take_eq_nil_iff, or_iff_right (by omega),
      ← List.length_eq_zero_iff, Table.perm_orderBy.length_eq, List.length_eq_zero_iff]
  rw [hempty, List.eq_nil_iff_forall_not_mem]
  constructor
  · intro h
    -- Every profile of another artist is joined with every one of the name.
    by_cases hnamed : ∃ s ∈ profiles.rows, Named database artistName s
    · obtain ⟨s, hs, hname⟩ := hnamed
      refine Or.inr fun profile hprofile => ?_
      by_contra hother
      exact h ⟨profile, s⟩ (mem_joined.mpr ⟨⟨hprofile, hother⟩, mem_source.mpr ⟨hs, hname⟩⟩)
    · exact Or.inl fun profile hprofile hname => hnamed ⟨profile, hprofile, hname⟩
  · rintro h pair hpair
    obtain ⟨⟨hprofile, hother⟩, hs⟩ := mem_joined.mp hpair
    obtain ⟨hsource, hnamed⟩ := mem_source.mp hs
    rcases h with h | h
    · exact h pair.source hsource hnamed
    · exact hother (h pair.profile hprofile)

/-- The artists of the result are those of the nearest pairs. -/
theorem artists_query : (query database profiles artistName limit tie).map SimilarArtist.artist =
    (((joined database profiles artistName).orderBy (distance database) tie).take limit).map
      fun pair => pair.profile.artist := by
  rw [query, List.map_map]
  rfl

/-- But for repeated artists, the query returns the nearest artists. -/
theorem nearest_query
    (hdistinct : ((query database profiles artistName limit tie).map
      SimilarArtist.artist).Nodup)
    (hnamed : ∃ s ∈ profiles.rows, Named database artistName s) :
    Nearest database profiles artistName limit
      (query database profiles artistName limit tie) := by
  have hpair : ∀ row ∈ query database profiles artistName limit tie,
      ∃ pair ∈ (joined database profiles artistName).rows, row = select database pair := by
    intro row hrow
    obtain ⟨pair, hmem, rfl⟩ := List.mem_map.mp hrow
    exact ⟨pair, Table.mem_orderBy.mp (List.mem_of_mem_take hmem), rfl⟩
  refine ⟨?_, hdistinct, ?_, ?_, ?_, ?_⟩
  · rw [query, List.length_map]
    exact List.length_take_le limit _
  · intro row hrow
    obtain ⟨pair, hmem, rfl⟩ := hpair row hrow
    exact (mem_joined.mp hmem).1.2
  · rw [query, List.pairwise_map]
    exact (Table.pairwise_orderBy.sublist (List.take_sublist limit _)).imp fun h => h.le
  · intro row hrow
    obtain ⟨pair, hmem, rfl⟩ := hpair row hrow
    obtain ⟨⟨hprofile, -⟩, hs⟩ := mem_joined.mp hmem
    exact ⟨pair.profile, hprofile, pair.source, hs, rfl⟩
  · intro hfew profile hprofile hother
    obtain ⟨s, hs, hname⟩ := hnamed
    have hmem : (⟨profile, s⟩ : ProfilePair E) ∈
        (joined database profiles artistName).orderBy (distance database) tie :=
      Table.mem_orderBy.mpr (mem_joined.mpr ⟨⟨hprofile, hother⟩, mem_source.mpr ⟨hs, hname⟩⟩)
    -- With fewer than `limit` rows, `LIMIT` has cut off nothing.
    have hall : ((joined database profiles artistName).orderBy (distance database) tie).take limit =
        (joined database profiles artistName).orderBy (distance database) tie := by
      rw [query, List.length_map, List.length_take] at hfew
      exact List.take_of_length_le (by omega)
    rw [artists_query, hall]
    exact List.mem_map.mpr ⟨_, hmem, rfl⟩

theorem findSimilar_eq_error_iff : (∃ e, findSimilar database profiles artistName limit tie =
    .error e) ↔ query database profiles artistName limit tie = [] := by
  -- The repository takes an empty result for a missing profile.
  unfold findSimilar
  cases query database profiles artistName limit tie <;> simp

theorem findSimilar_eq_ok_iff {rows : List (SimilarArtist D)} :
    findSimilar database profiles artistName limit tie = .ok rows ↔
      query database profiles artistName limit tie ≠ [] ∧
        query database profiles artistName limit tie = rows := by
  unfold findSimilar
  cases query database profiles artistName limit tie <;> simp

/-- A profile with the name of its artist in one letter case only is told apart from the others. -/
theorem discerning_of_unique
    (hother : ∃ profile ∈ profiles.rows, ¬Named database artistName profile)
    (hunique : ∀ s ∈ source database profiles artistName,
      ∀ s' ∈ source database profiles artistName, s.artist = s'.artist) :
    Discerning database profiles artistName limit where
  other := fun _ => hother
  ahead := by
    intro profile _ s hs s' hs' _ hname hname' hne _
    exact absurd (hunique s (mem_source.mpr ⟨hs, hname⟩) s' (mem_source.mpr ⟨hs', hname'⟩)) hne

/-- Whatever the server chooses, the result is about the artist asked for exactly if the profiles
tell the artist apart from the others. -/
theorem answers_iff (hlimit : 1 ≤ limit) :
    (∀ tie, Answers database profiles artistName limit
      (findSimilar database profiles artistName limit tie)) ↔
      Discerning database profiles artistName limit := by
  have hranked := Table.nodup_take_orderBy_iff (distance database)
    (joined database profiles artistName) limit fun pair => pair.profile.artist
  constructor
  · intro h
    constructor
    · -- With the name and no other artist, the empty result is taken for a missing profile.
      intro hnamed
      by_contra hnone
      have hnil : query database profiles artistName limit (fun _ => 0) = [] := by
        refine (query_eq_nil_iff hlimit).mpr (Or.inr fun profile hprofile => ?_)
        by_contra hother
        exact hnone ⟨profile, hprofile, hother⟩
      obtain ⟨profile, hprofile, hname⟩ := hnamed
      exact (h fun _ => 0).notFound.mp (findSimilar_eq_error_iff.mpr hnil) profile hprofile hname
    · intro profile hprofile s hs s' hs' hother hname hname' hne hle
      have hpair : (⟨profile, s⟩ : ProfilePair E) ∈ (joined database profiles artistName).rows :=
        mem_joined.mpr ⟨⟨hprofile, hother⟩, mem_source.mpr ⟨hs, hname⟩⟩
      have hpair' : (⟨profile, s'⟩ : ProfilePair E) ∈ (joined database profiles artistName).rows :=
        mem_joined.mpr ⟨⟨hprofile, hother⟩, mem_source.mpr ⟨hs', hname'⟩⟩
      -- Two pairs of one artist cannot both be returned, whatever the server chooses.
      rw [← length_ahead_joined]
      refine hranked.mp (fun tie => ?_) _ hpair _ hpair' ?_ rfl hle
      · rw [← artists_query]
        by_cases hnil : query database profiles artistName limit tie = []
        · simp [hnil]
        · exact ((h tie).nearest _ (findSimilar_eq_ok_iff.mpr ⟨hnil, rfl⟩)).distinct
      · exact fun heq => hne (Prod.mk.inj heq).2
  · intro h tie
    -- Two pairs with the same artist have the same profile, and come of two profiles of the name.
    have hdistinct : ((query database profiles artistName limit tie).map
        SimilarArtist.artist).Nodup := by
      rw [artists_query]
      refine hranked.mpr ?_ tie
      rintro ⟨profile, s⟩ hpair ⟨profile', s'⟩ hpair' hne hlabel hle
      obtain ⟨⟨hprofile, hother⟩, hs⟩ := mem_joined.mp hpair
      obtain ⟨⟨hprofile', -⟩, hs'⟩ := mem_joined.mp hpair'
      obtain rfl : profile = profile' := profiles.eq_of_key_eq hprofile hprofile' hlabel
      obtain ⟨hs, hname⟩ := mem_source.mp hs
      obtain ⟨hs', hname'⟩ := mem_source.mp hs'
      rw [length_ahead_joined]
      exact h.ahead profile hprofile s hs s' hs' hother hname hname'
        (fun heq => hne (Prod.ext rfl heq)) hle
    constructor
    · rw [findSimilar_eq_error_iff, query_eq_nil_iff hlimit]
      refine or_iff_left_of_imp fun hall profile hprofile hname => ?_
      obtain ⟨other, hmem, hother⟩ := h.other ⟨profile, hprofile, hname⟩
      exact hother (hall other hmem)
    · intro rows hrows
      obtain ⟨hne, rfl⟩ := findSimilar_eq_ok_iff.mp hrows
      refine nearest_query hdistinct ?_
      by_contra hnamed
      refine hne ((query_eq_nil_iff hlimit).mpr (Or.inl fun profile hprofile hname => ?_))
      exact hnamed ⟨profile, hprofile, hname⟩

/-- Embeddings on a line, and names in the letters of ASCII. -/
def line : VectorDatabase ℕ ℕ where
  lower := asciiLower
  distance := fun x y => x - y + (y - x)

/-- A profile. -/
def profileOf (artist : String) (embedding : ℕ) : ArtistProfile ℕ :=
  { artist, profileText := "Artist: " ++ artist, embedding }

/-- One artist and nobody else. -/
def oneArtist : Relational.Table (ArtistProfile ℕ) := ⟨[profileOf "Radiohead" 0], by decide⟩

/-- An artist in two letter cases, and another one. -/
def twoSpellings : Relational.Table (ArtistProfile ℕ) :=
  ⟨[profileOf "Radiohead" 0, profileOf "RADIOHEAD" 1, profileOf "Muse" 5], by decide⟩

/-- Three artists. -/
def threeArtists : Relational.Table (ArtistProfile ℕ) :=
  ⟨[profileOf "Radiohead" 0, profileOf "Muse" 5, profileOf "Blur" 3], by decide⟩

/-- Three artists are told apart. -/
theorem answers_threeArtists : 1 ≤ 5 ∧ ∀ tie, Answers line threeArtists "radiohead" 5
    (findSimilar line threeArtists "radiohead" 5 tie) :=
  ⟨by decide, (answers_iff (by decide)).mpr
    (discerning_of_unique (by decide +kernel) (by decide +kernel))⟩

/-- One artist is not found for want of others, and an artist in two letter cases is compared with
each of the others twice. -/
theorem not_answers :
    ¬Answers line oneArtist "Radiohead" 5 (findSimilar line oneArtist "Radiohead" 5 fun _ => 0) ∧
    ¬Answers line twoSpellings "Radiohead" 5
      (findSimilar line twoSpellings "Radiohead" 5 fun _ => 0) := by
  constructor
  · intro h
    have herror : findSimilar line oneArtist "Radiohead" 5 (fun _ => 0) =
        .error ⟨"Radiohead"⟩ := by decide +kernel
    exact h.notFound.mp ⟨_, herror⟩ (profileOf "Radiohead" 0) List.mem_cons_self rfl
  · intro h
    have hok : findSimilar line twoSpellings "Radiohead" 5 (fun _ => 0) =
        .ok [⟨"Muse", "Artist: Muse", OrderDual.toDual 4⟩,
          ⟨"Muse", "Artist: Muse", OrderDual.toDual 5⟩] := by decide +kernel
    exact absurd (h.nearest _ hok).distinct (by decide)

end ArtistProfileRepository

end ConcertAssistant
