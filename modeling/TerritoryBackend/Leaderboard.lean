import TerritoryBackend.Pagination
import TerritoryBackend.Repositories

/-!
# Walking the leaderboard

`PlayerRepository.get_leaderboard` and the route that numbers its rows.  The
data query orders the active players by rating alone, so the database is free
to order equally rated players differently for each page.
-/

namespace TerritoryBackend

/-- A row of `players`, as far as the leaderboard shows it. -/
structure Player extends PlayerRow where
  id : PlayerId
  username : String
  isActive : Bool := true

/-- The two numbers `win_rate` is computed from, a float. -/
structure WinRate where
  gamesWon : Nat
  totalGames : Nat

structure LeaderboardEntry where
  rank : Nat
  playerId : PlayerId
  username : String
  eloRating : Int
  gamesPlayed : Nat
  winRate : WinRate

structure LeaderboardResponse where
  entries : List LeaderboardEntry
  totalPlayers : Nat
  page : Int
  pageSize : Int

namespace PlayerRepository

def activePlayers (players : List Player) : List Player :=
  players.filter Player.isActive

/-- An order of the active players the data query may return. -/
abbrev Ordered (players order : List Player) : Prop :=
  Pagination.IsOrdering (fun player : Player => player.eloRating) (activePlayers players) order

/-- `get_leaderboard`, given the order in which the database returns the rows:
the rows after the offset up to the limit, and the count of the active
players. -/
def getLeaderboard (players order : List Player) (page pageSize : Nat) : List Player × Nat :=
  let total := (activePlayers players).length
  let offset := (page - 1) * pageSize
  ((order.drop offset).take pageSize, total)

end PlayerRepository

open PlayerRepository

def LeaderboardEntry.ofPlayer (rank : Nat) (player : Player) : LeaderboardEntry where
  rank := rank
  playerId := player.id
  username := player.username
  eloRating := player.eloRating
  gamesPlayed := player.gamesPlayed
  winRate := ⟨player.gamesWon, if player.gamesPlayed = 0 then 1 else player.gamesPlayed⟩

/-- The route `/leaderboard`. -/
def getLeaderboard (players order : List Player) (page pageSize : Int) : LeaderboardResponse :=
  let page := if page < 1 then 1 else page
  let pageSize := if pageSize < 1 ∨ 100 < pageSize then 50 else pageSize
  let (rows, total) :=
    PlayerRepository.getLeaderboard players order page.toNat pageSize.toNat
  { entries := rows.mapIdx fun i player =>
      .ofPlayer ((page.toNat - 1) * pageSize.toNat + i + 1) player
    totalPlayers := total
    page := page
    pageSize := pageSize }

/-- The number of pages that cover all players. -/
def pageCount (total pageSize : Nat) : Nat := (total + pageSize - 1) / pageSize

/-- The entries of the first pages, each with the order its query got. -/
def walkPages (players : List Player) (orders : Nat → List Player) (pageSize count : Nat) :
    List LeaderboardEntry :=
  (List.range count).flatMap fun number =>
    (getLeaderboard players (orders number) (number + 1) pageSize).entries

/-- Each active player once, ranked without a gap by non-increasing rating. -/
structure ListsEachOnce (players : List Player) (entries : List LeaderboardEntry) : Prop where
  once : (entries.map LeaderboardEntry.playerId).Perm ((activePlayers players).map Player.id)
  ranks : entries.map LeaderboardEntry.rank = List.range' 1 (activePlayers players).length
  ratings : entries.Pairwise fun first second => second.eloRating ≤ first.eloRating

variable {players order : List Player} {orders : Nat → List Player} {pageSize count : Nat}

theorem le_pageCount_mul (total : Nat) (positive : 1 ≤ pageSize) :
    total ≤ pageCount total pageSize * pageSize := by
  have divided := Nat.div_add_mod (total + pageSize - 1) pageSize
  have small := Nat.mod_lt (total + pageSize - 1) positive
  rw [pageCount, Nat.mul_comm]
  omega

/-- A page shows the rows the query returned. -/
theorem entries_getLeaderboard (positive : 1 ≤ pageSize) (atMost : pageSize ≤ 100)
    (players order : List Player) (number : Nat) :
    (getLeaderboard players order (number + 1) pageSize).entries =
      (Pagination.page pageSize number order).mapIdx fun i player =>
        .ofPlayer (number * pageSize + i + 1) player := by
  have page : ¬ ((number : Int) + 1 < 1) := by omega
  have size : ¬ ((pageSize : Int) < 1 ∨ 100 < (pageSize : Int)) := by omega
  have back : ((number : Int) + 1).toNat = number + 1 := by omega
  simp only [getLeaderboard, PlayerRepository.getLeaderboard, page, size, if_false, back,
    Int.toNat_natCast, Nat.add_sub_cancel]
  rfl

theorem walkPages_succ (players : List Player) (orders : Nat → List Player)
    (pageSize count : Nat) :
    walkPages players orders pageSize (count + 1) =
      walkPages players orders pageSize count ++
        (getLeaderboard players (orders count) (count + 1) pageSize).entries := by
  simp [walkPages, List.range_succ]

theorem map_mapIdx_ofPlayer {β : Type*} {shown : Player → β} {read : LeaderboardEntry → β}
    (shows : ∀ rank player, read (.ofPlayer rank player) = shown player) (start : Nat)
    (rows : List Player) :
    (rows.mapIdx fun i player => LeaderboardEntry.ofPlayer (start + i + 1) player).map read =
      rows.map shown :=
  List.ext_getElem (by simp) (by simp [shows])

/-- What an entry shows of its player is read off the rows. -/
theorem map_walkPages {β : Type*} {shown : Player → β} {read : LeaderboardEntry → β}
    (shows : ∀ rank player, read (.ofPlayer rank player) = shown player)
    (positive : 1 ≤ pageSize) (atMost : pageSize ≤ 100) (count : Nat) :
    (walkPages players orders pageSize count).map read =
      (Pagination.walk pageSize count orders).map shown := by
  induction count with
  | zero => rfl
  | succ count ih =>
      rw [walkPages_succ, Pagination.walk_succ, List.map_append, List.map_append, ih,
        entries_getLeaderboard positive atMost, map_mapIdx_ofPlayer shows]

theorem map_rank_ofPlayer (start : Nat) (rows : List Player) :
    (rows.mapIdx fun i player => LeaderboardEntry.ofPlayer (start + i + 1) player).map
        LeaderboardEntry.rank = List.range' (start + 1) rows.length :=
  List.ext_getElem (by simp) (by simp [LeaderboardEntry.ofPlayer]; omega)

theorem ranks_walkPages (positive : 1 ≤ pageSize) (atMost : pageSize ≤ 100)
    (orderings : ∀ number, Ordered players (orders number)) (count : Nat) :
    (walkPages players orders pageSize count).map LeaderboardEntry.rank =
      List.range' 1 (min (count * pageSize) (activePlayers players).length) := by
  induction count with
  | zero => simp [walkPages]
  | succ count ih =>
      have length := (orderings count).perm.length_eq
      rw [walkPages_succ, List.map_append, ih, entries_getLeaderboard positive atMost,
        map_rank_ofPlayer, Pagination.page, List.length_take, List.length_drop, length,
        Nat.succ_mul]
      by_cases within : count * pageSize ≤ (activePlayers players).length
      · rw [min_eq_left within, Nat.add_comm (count * pageSize) 1, List.range'_append_1]
        congr 1
        omega
      · have beyond : (activePlayers players).length - count * pageSize = 0 := by omega
        rw [min_eq_right (by omega), beyond, min_eq_right (by omega), min_eq_right (by omega)]
        simp

theorem ratings_walkPages (positive : 1 ≤ pageSize) (atMost : pageSize ≤ 100)
    (orderings : ∀ number, Ordered players (orders number))
    (covers : (activePlayers players).length ≤ count * pageSize) :
    (walkPages players orders pageSize count).Pairwise fun first second =>
      second.eloRating ≤ first.eloRating := by
  have shown (rank : Nat) (player : Player) :
      (LeaderboardEntry.ofPlayer rank player).eloRating = player.eloRating := rfl
  rw [← List.pairwise_map (f := LeaderboardEntry.eloRating)
    (R := fun first second : Int => second ≤ first), map_walkPages shown positive atMost,
    Pagination.map_key_walk orderings covers]
  exact (orderings 0).sorted_map_key

/-- Main result: whatever orders the database chooses, the walk lists each
active player once, exactly if no page ends inside a group of equally rated
players. -/
theorem listsEachOnce_iff (unique : (players.map Player.id).Nodup) (positive : 1 ≤ pageSize)
    (atMost : pageSize ≤ 100) :
    (∀ orders, (∀ number, Ordered players (orders number)) →
      ListsEachOnce players (walkPages players orders pageSize
        (pageCount (activePlayers players).length pageSize))) ↔
      ¬ Pagination.CutsTie (fun player : Player => player.eloRating) (activePlayers players)
        pageSize := by
  have covers := le_pageCount_mul (activePlayers players).length positive
  have ids (orders : Nat → List Player) (count : Nat) :
      (walkPages players orders pageSize count).map LeaderboardEntry.playerId =
        (Pagination.walk pageSize count orders).map Player.id :=
    map_walkPages (fun _ _ => rfl) positive atMost count
  constructor
  · intro always cut
    obtain ⟨orders, orderings, twice⟩ := Pagination.exists_not_nodup cut covers
    have once := (always orders orderings).once
    rw [ids] at once
    have activeUnique : ((activePlayers players).map Player.id).Nodup :=
      unique.sublist (List.filter_sublist.map Player.id)
    exact twice (once.nodup_iff.mpr activeUnique).of_map
  · intro uncut orders orderings
    refine ⟨?_, ?_, ratings_walkPages positive atMost orderings covers⟩
    · rw [ids]
      exact (Pagination.walk_perm uncut orderings covers).map Player.id
    · rw [ranks_walkPages positive atMost orderings, min_eq_right covers]

/-- New players all start with the same rating. -/
def newPlayer (username : String) : Player where
  id := username
  username := username

def newPlayers : List Player := [newPlayer "ada", newPlayer "bob", newPlayer "cyd"]

/-- A first page of two equally rated players, and a third one below them. -/
def ratedPlayers : List Player :=
  [{ newPlayer "ada" with eloRating := 1016 }, { newPlayer "bob" with eloRating := 1016 },
    newPlayer "cyd"]

theorem ratedPlayers_listedOnce :
    ¬ Pagination.CutsTie (fun player : Player => player.eloRating) (activePlayers ratedPlayers)
        2 ∧
      ∀ orders, (∀ number, Ordered ratedPlayers (orders number)) →
        ListsEachOnce ratedPlayers (walkPages ratedPlayers orders 2
          (pageCount (activePlayers ratedPlayers).length 2)) := by
  have uncut : ¬ Pagination.CutsTie (fun player : Player => player.eloRating)
      (activePlayers ratedPlayers) 2 := by
    rintro ⟨number, value, above, upTo⟩
    have ratings : (activePlayers ratedPlayers).map (fun player => player.eloRating) =
        [1016, 1016, 1000] := by decide
    rw [← Function.comp_def (fun rating : Int => decide (value < rating)), ← List.countP_map,
      ratings] at above
    rw [← Function.comp_def (fun rating : Int => decide (value ≤ rating)), ← List.countP_map,
      ratings] at upTo
    -- Only the end of the first page has rows on both sides.
    by_cases low : value ≤ 1000
    · have two : value < 1016 := by omega
      simp [List.countP_cons, two, two.le, low] at above upTo
      omega
    · have none : ¬ value < 1000 := by omega
      by_cases high : value ≤ 1016 <;> simp [List.countP_cons, low, high, none] at above upTo
      all_goals omega
  exact ⟨uncut, (listsEachOnce_iff (by decide) (by decide) (by decide)).mpr uncut⟩

/-- The order of the first query, and that of the others. -/
def newPlayersOrder (number : Nat) : List Player :=
  if number = 0 then newPlayers else [newPlayer "bob", newPlayer "cyd", newPlayer "ada"]

/-- On pages of two, ada is listed twice and cyd never. -/
theorem newPlayers_listedTwice :
    (∀ number, Ordered newPlayers (newPlayersOrder number)) ∧
      (walkPages newPlayers newPlayersOrder 2
        (pageCount (activePlayers newPlayers).length 2)).map LeaderboardEntry.playerId =
          ["ada", "bob", "ada"] ∧
      ¬ ListsEachOnce newPlayers (walkPages newPlayers newPlayersOrder 2
        (pageCount (activePlayers newPlayers).length 2)) := by
  have listed : (walkPages newPlayers newPlayersOrder 2
      (pageCount (activePlayers newPlayers).length 2)).map LeaderboardEntry.playerId =
        ["ada", "bob", "ada"] := by decide +kernel
  refine ⟨?_, listed, ?_⟩
  · intro number
    unfold newPlayersOrder
    split
    · exact ⟨List.Perm.refl _, by decide⟩
    · exact ⟨List.perm_append_singleton (newPlayer "ada") [newPlayer "bob", newPlayer "cyd"],
        by decide⟩
  · intro once
    have once := once.once
    rw [listed] at once
    revert once
    decide

end TerritoryBackend
