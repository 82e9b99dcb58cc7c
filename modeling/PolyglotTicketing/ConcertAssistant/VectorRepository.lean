import Mathlib.Data.List.ProdSigma
import Mathlib.Order.OrderDual
import PolyglotTicketing.Relational.Ranking

/-!
# Similar artists

`ArtistProfileRepository.find_similar` of
`apps/concert-assistant/src/concert_assistant/vector_repository.py` on the table `artist_profiles`
of `indexer.py`, and what `_answer_artist_similarity` of `service.py` makes of it.

Embeddings, their distance and the function `lower` of PostgreSQL are parameters. The index on
`embedding` plays no part: its order is of use for the distance to a constant, and the query orders
by the distance to a column of the other side of the join.
-/

namespace ConcertAssistant

open Relational

variable {E D : Type}

/-- A row of `artist_profiles`, with the columns that the query reads. -/
structure ArtistProfile (E : Type) where
  artist : String
  profileText : String
  embedding : E

instance : Keyed (ArtistProfile E) String := ⟨ArtistProfile.artist⟩

/-- What the query uses of PostgreSQL and of its extension `vector`. -/
structure VectorDatabase (E D : Type) where
  /-- The function `lower`, with which names are compared without regard to letter case. -/
  lower : String → String
  /-- The operator `<=>`. -/
  distance : E → E → D

/-- A row of the cross join. -/
structure ProfilePair (E : Type) where
  profile : ArtistProfile E
  source : ArtistProfile E

instance : Keyed (ProfilePair E) (String × String) :=
  ⟨fun pair => (pair.profile.artist, pair.source.artist)⟩

/-- A row of the result. Of the similarity `1 - distance` nothing but its order matters, which is
that of the distance turned around. -/
structure SimilarArtist (D : Type) where
  artist : String
  profileText : String
  similarity : Dᵒᵈ
deriving DecidableEq

/-- The distance that makes up the similarity. -/
def SimilarArtist.distance (row : SimilarArtist D) : D := OrderDual.ofDual row.similarity

/-- The requested source artist has no indexed touring profile. -/
structure ArtistNotFoundError where
  artistName : String
deriving DecidableEq

namespace ArtistProfileRepository

variable (database : VectorDatabase E D) (profiles : Relational.Table (ArtistProfile E))
  (artistName : String)

/-- `lower(artist) = lower(artistName)`. -/
def Named (profile : ArtistProfile E) : Prop :=
  database.lower profile.artist = database.lower artistName

instance (profile : ArtistProfile E) : Decidable (Named database artistName profile) :=
  inferInstanceAs (Decidable (_ = _))

/-- The common table expression `source`. -/
def source : List (ArtistProfile E) :=
  profiles.rows.filter fun profile => decide (Named database artistName profile)

/-- The `FROM` and the `WHERE` clause: profiles of other artists, each with each row of
`source`. -/
def joined : Relational.Table (ProfilePair E) where
  rows := ((profiles.rows ×ˢ source database profiles artistName).filter fun pair =>
    decide (database.lower pair.1.artist ≠ database.lower pair.2.artist)).map
      fun pair => ⟨pair.1, pair.2⟩
  nodup := by
    have hrows : profiles.rows.Nodup := profiles.nodup.of_map key
    -- A pair is told apart by the keys of its two rows, and is joined once.
    rw [List.map_map]
    refine ((hrows.product (hrows.filter _)).filter _).map_on ?_
    rintro ⟨p, s⟩ hpair ⟨p', s'⟩ hpair' heq
    obtain ⟨hp, hs⟩ := List.mem_product.mp (List.mem_of_mem_filter hpair)
    obtain ⟨hp', hs'⟩ := List.mem_product.mp (List.mem_of_mem_filter hpair')
    obtain ⟨hprofile, hsource⟩ := Prod.mk.inj heq
    rw [profiles.eq_of_key_eq hp hp' hprofile,
      profiles.eq_of_key_eq (List.mem_of_mem_filter hs) (List.mem_of_mem_filter hs') hsource]

/-- `profile.embedding <=> source.embedding`. -/
def distance (pair : ProfilePair E) : D :=
  database.distance pair.profile.embedding pair.source.embedding

/-- The `SELECT` clause. -/
def select (pair : ProfilePair E) : SimilarArtist D where
  artist := pair.profile.artist
  profileText := pair.profile.profileText
  similarity := OrderDual.toDual (distance database pair)

variable [LinearOrder D] (limit : ℕ)

/-- The rows that the query returns. Among rows of one distance the server chooses (`tie`). -/
def query (tie : ProfilePair E → ℕ) : List (SimilarArtist D) :=
  (((joined database profiles artistName).orderBy (distance database) tie).take limit).map
    (select database)

def findSimilar (tie : ProfilePair E → ℕ) : Except ArtistNotFoundError (List (SimilarArtist D)) :=
  let found := query database profiles artistName limit tie
  if found.isEmpty then .error ⟨artistName⟩ else .ok found

end ArtistProfileRepository

/-- What the assistant answers. -/
structure AssistantResponse where
  answer : String
  details : Option String := none
deriving DecidableEq

/-- `_answer_artist_similarity`. The repository returns `none` if it raises another exception, and
so does `synthesize_similarity`. -/
def answerArtistSimilarity
    (findSimilar : String → Option (Except ArtistNotFoundError (List (SimilarArtist D))))
    (synthesizeSimilarity : String → String → List (SimilarArtist D) → Option String)
    (question artistName : String) : AssistantResponse :=
  if artistName.isEmpty then { answer := "I couldn't identify the artist to compare." }
  else
    match findSimilar artistName with
    | some (.error _) =>
      { answer := "I couldn't find an indexed touring profile for " ++ artistName ++ "." }
    | none =>
      { answer := "I couldn't retrieve similar touring profiles right now. Please try again." }
    | some (.ok found) =>
      match synthesizeSimilarity question artistName found with
      | none =>
        { answer := "I found similar touring profiles but couldn't summarize them right now."
          details := some ("Touring-profile similarity for " ++ artistName) }
      | some answer =>
        { answer := answer
          details := some ("Touring-profile similarity for " ++ artistName) }

end ConcertAssistant
