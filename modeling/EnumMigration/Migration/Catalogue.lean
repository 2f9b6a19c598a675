import EnumMigration.Migration

/-!
# Built-in migrations

The catalogue holds one migration: the betting rounds of a poker game, from integer constants to an
enumeration.
-/

namespace EnumMigration.Catalogue

/-- The name of the betting round migration. -/
def bettingRoundName : String := "betting-round"

/-- The files that use betting rounds. -/
def bettingRoundFiles : List String :=
  ["poker/src/main/java/com/donohoedigital/games/poker/ai/AIOutcome.java",
   "poker/src/main/java/com/donohoedigital/games/poker/ai/gui/AdvisorInfoDialog.java",
   "poker/src/main/java/com/donohoedigital/games/poker/ai/OpponentModel.java",
   "poker/src/main/java/com/donohoedigital/games/poker/ai/PocketWeights.java",
   "poker/src/main/java/com/donohoedigital/games/poker/ai/PokerAI.java",
   "poker/src/main/java/com/donohoedigital/games/poker/ai/RuleEngine.java",
   "poker/src/main/java/com/donohoedigital/games/poker/ai/V1Player.java",
   "poker/src/main/java/com/donohoedigital/games/poker/ai/V2Player.java",
   "poker/src/main/java/com/donohoedigital/games/poker/Bet.java",
   "poker/src/main/java/com/donohoedigital/games/poker/dashboard/AdvanceAction.java",
   "poker/src/main/java/com/donohoedigital/games/poker/dashboard/DashboardAdvisor.java",
   "poker/src/main/java/com/donohoedigital/games/poker/dashboard/HandStrengthDash.java",
   "poker/src/main/java/com/donohoedigital/games/poker/dashboard/ImproveOdds.java",
   "poker/src/main/java/com/donohoedigital/games/poker/dashboard/Odds.java",
   "poker/src/main/java/com/donohoedigital/games/poker/dashboard/PotOdds.java",
   "poker/src/main/java/com/donohoedigital/games/poker/DealCommunity.java",
   "poker/src/main/java/com/donohoedigital/games/poker/HandAction.java",
   "poker/src/main/java/com/donohoedigital/games/poker/HandHistoryPanel.java",
   "poker/src/main/java/com/donohoedigital/games/poker/HandPotential.java",
   "poker/src/main/java/com/donohoedigital/games/poker/HoldemHand.java",
   "poker/src/main/java/com/donohoedigital/games/poker/impexp/ImpExpParadise.java",
   "poker/src/main/java/com/donohoedigital/games/poker/impexp/ImpExpUB.java",
   "poker/src/main/java/com/donohoedigital/games/poker/logic/DealingRules.java",
   "poker/src/main/java/com/donohoedigital/games/poker/online/TournamentDirector.java",
   "poker/src/main/java/com/donohoedigital/games/poker/PlayerProfile.java",
   "poker/src/main/java/com/donohoedigital/games/poker/PokerDatabase.java",
   "poker/src/main/java/com/donohoedigital/games/poker/PokerGame.java",
   "poker/src/main/java/com/donohoedigital/games/poker/PokerGameboard.java",
   "poker/src/main/java/com/donohoedigital/games/poker/PokerStatsPanel.java",
   "poker/src/main/java/com/donohoedigital/games/poker/PokerTable.java",
   "poker/src/main/java/com/donohoedigital/games/poker/Showdown.java",
   "poker/src/main/java/com/donohoedigital/games/poker/SimulatorDialog.java",
   "poker/src/main/java/com/donohoedigital/games/poker/StatisticsViewer.java",
   "poker/src/main/java/com/donohoedigital/games/poker/TournamentDirectorPauser.java",
   "poker/src/test/java/com/donohoedigital/games/poker/ai/OpponentModelTest.java",
   "poker/src/test/java/com/donohoedigital/games/poker/HandActionTest.java",
   "poker/src/test/java/com/donohoedigital/games/poker/HoldemHandPotCalculationTest.java",
   "poker/src/test/java/com/donohoedigital/games/poker/HoldemHandTest.java"]

/-- The constants for betting rounds and the members that take their place. -/
def bettingRoundPatterns : List PatternEntry :=
  [⟨"HoldemHand.ROUND_NONE", "BettingRound.NONE"⟩,
   ⟨"HoldemHand.ROUND_PRE_FLOP", "BettingRound.PRE_FLOP"⟩,
   ⟨"HoldemHand.ROUND_FLOP", "BettingRound.FLOP"⟩,
   ⟨"HoldemHand.ROUND_TURN", "BettingRound.TURN"⟩,
   ⟨"HoldemHand.ROUND_RIVER", "BettingRound.RIVER"⟩,
   ⟨"HoldemHand.ROUND_SHOWDOWN", "BettingRound.SHOWDOWN"⟩]

/-- The betting round migration. -/
def bettingRound : Migration :=
  { name := bettingRoundName
    importLine := "import com.donohoedigital.games.poker.core.state.BettingRound;"
    patterns := bettingRoundPatterns
    files := bettingRoundFiles.map Path.mk }

/-- The names of the built-in migrations. -/
def names : List String := [bettingRoundName]

/-- The built-in migration of a given name. -/
def find? (name : String) : Option Migration :=
  if name = bettingRoundName then some bettingRound else none

end EnumMigration.Catalogue
