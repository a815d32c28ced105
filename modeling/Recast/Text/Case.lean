import Recast.Text.Basic
import Recast.Text.Runs

/-!
# Letter case

`capitalize` writes the first character of a word in title case and the others in lower case, with
the full case mappings: one character may become several, and a capital sigma becomes `ς` at the end
of a word and `σ` elsewhere (`endsWord`).
-/

namespace Recast

/-- A run of characters that one shift maps: `count` characters from `first`, each `step` apart. -/
structure CaseRun where
  first : Nat
  count : Nat
  step : Nat
  shift : Int

/-- Whether the run holds the code point `n`. -/
def CaseRun.holds (run : CaseRun) (n : Nat) : Bool :=
  run.first ≤ n && n < run.first + run.count * run.step && (n - run.first) % run.step == 0

/-- The image of a code point under the runs, or the code point itself. -/
def mapCase (runs : List CaseRun) (n : Nat) : Nat :=
  match runs.find? (·.holds n) with
  | some run => (n + run.shift).toNat
  | none => n

/-- Lower case beyond ASCII. -/
def lowerRuns : List CaseRun :=
  [⟨192, 23, 1, 32⟩, ⟨216, 7, 1, 32⟩, ⟨256, 24, 2, 1⟩, ⟨306, 3, 2, 1⟩, ⟨313, 8, 2, 1⟩, ⟨330, 23, 2,
   1⟩, ⟨376, 1, 1, -121⟩, ⟨377, 3, 2, 1⟩, ⟨385, 1, 1, 210⟩, ⟨386, 2, 2, 1⟩, ⟨390, 1, 1, 206⟩, ⟨391,
   1, 1, 1⟩, ⟨393, 2, 1, 205⟩, ⟨395, 1, 1, 1⟩, ⟨398, 1, 1, 79⟩, ⟨399, 1, 1, 202⟩, ⟨400, 1, 1, 203⟩,
   ⟨401, 1, 1, 1⟩, ⟨403, 1, 1, 205⟩, ⟨404, 1, 1, 207⟩, ⟨406, 1, 1, 211⟩, ⟨407, 1, 1, 209⟩, ⟨408, 1,
   1, 1⟩, ⟨412, 1, 1, 211⟩, ⟨413, 1, 1, 213⟩, ⟨415, 1, 1, 214⟩, ⟨416, 3, 2, 1⟩, ⟨422, 1, 1, 218⟩,
   ⟨423, 1, 1, 1⟩, ⟨425, 1, 1, 218⟩, ⟨428, 1, 1, 1⟩, ⟨430, 1, 1, 218⟩, ⟨431, 1, 1, 1⟩, ⟨433, 2, 1,
   217⟩, ⟨435, 2, 2, 1⟩, ⟨439, 1, 1, 219⟩, ⟨440, 1, 1, 1⟩, ⟨444, 1, 1, 1⟩, ⟨452, 1, 1, 2⟩, ⟨453, 1,
   1, 1⟩, ⟨455, 1, 1, 2⟩, ⟨456, 1, 1, 1⟩, ⟨458, 1, 1, 2⟩, ⟨459, 9, 2, 1⟩, ⟨478, 9, 2, 1⟩, ⟨497, 1,
   1, 2⟩, ⟨498, 2, 2, 1⟩, ⟨502, 1, 1, -97⟩, ⟨503, 1, 1, -56⟩, ⟨504, 20, 2, 1⟩, ⟨544, 1, 1, -130⟩,
   ⟨546, 9, 2, 1⟩, ⟨570, 1, 1, 10795⟩, ⟨571, 1, 1, 1⟩, ⟨573, 1, 1, -163⟩, ⟨574, 1, 1, 10792⟩, ⟨577,
   1, 1, 1⟩, ⟨579, 1, 1, -195⟩, ⟨580, 1, 1, 69⟩, ⟨581, 1, 1, 71⟩, ⟨582, 5, 2, 1⟩, ⟨880, 2, 2, 1⟩,
   ⟨886, 1, 1, 1⟩, ⟨895, 1, 1, 116⟩, ⟨902, 1, 1, 38⟩, ⟨904, 3, 1, 37⟩, ⟨908, 1, 1, 64⟩, ⟨910, 2, 1,
   63⟩, ⟨913, 17, 1, 32⟩, ⟨931, 9, 1, 32⟩, ⟨975, 1, 1, 8⟩, ⟨984, 12, 2, 1⟩, ⟨1012, 1, 1, -60⟩,
   ⟨1015, 1, 1, 1⟩, ⟨1017, 1, 1, -7⟩, ⟨1018, 1, 1, 1⟩, ⟨1021, 3, 1, -130⟩, ⟨1024, 16, 1, 80⟩,
   ⟨1040, 32, 1, 32⟩, ⟨1120, 17, 2, 1⟩, ⟨1162, 27, 2, 1⟩, ⟨1216, 1, 1, 15⟩, ⟨1217, 7, 2, 1⟩, ⟨1232,
   48, 2, 1⟩, ⟨1329, 38, 1, 48⟩, ⟨4256, 38, 1, 7264⟩, ⟨4295, 1, 1, 7264⟩, ⟨4301, 1, 1, 7264⟩,
   ⟨5024, 80, 1, 38864⟩, ⟨5104, 6, 1, 8⟩, ⟨7312, 43, 1, -3008⟩, ⟨7357, 3, 1, -3008⟩, ⟨7680, 75, 2,
   1⟩, ⟨7838, 1, 1, -7615⟩, ⟨7840, 48, 2, 1⟩, ⟨7944, 8, 1, -8⟩, ⟨7960, 6, 1, -8⟩, ⟨7976, 8, 1, -8⟩,
   ⟨7992, 8, 1, -8⟩, ⟨8008, 6, 1, -8⟩, ⟨8025, 4, 2, -8⟩, ⟨8040, 8, 1, -8⟩, ⟨8072, 8, 1, -8⟩, ⟨8088,
   8, 1, -8⟩, ⟨8104, 8, 1, -8⟩, ⟨8120, 2, 1, -8⟩, ⟨8122, 2, 1, -74⟩, ⟨8124, 1, 1, -9⟩, ⟨8136, 4, 1,
   -86⟩, ⟨8140, 1, 1, -9⟩, ⟨8152, 2, 1, -8⟩, ⟨8154, 2, 1, -100⟩, ⟨8168, 2, 1, -8⟩, ⟨8170, 2, 1,
   -112⟩, ⟨8172, 1, 1, -7⟩, ⟨8184, 2, 1, -128⟩, ⟨8186, 2, 1, -126⟩, ⟨8188, 1, 1, -9⟩, ⟨8486, 1, 1,
   -7517⟩, ⟨8490, 1, 1, -8383⟩, ⟨8491, 1, 1, -8262⟩, ⟨8498, 1, 1, 28⟩, ⟨8544, 16, 1, 16⟩, ⟨8579, 1,
   1, 1⟩, ⟨9398, 26, 1, 26⟩, ⟨11264, 48, 1, 48⟩, ⟨11360, 1, 1, 1⟩, ⟨11362, 1, 1, -10743⟩, ⟨11363,
   1, 1, -3814⟩, ⟨11364, 1, 1, -10727⟩, ⟨11367, 3, 2, 1⟩, ⟨11373, 1, 1, -10780⟩, ⟨11374, 1, 1,
   -10749⟩, ⟨11375, 1, 1, -10783⟩, ⟨11376, 1, 1, -10782⟩, ⟨11378, 1, 1, 1⟩, ⟨11381, 1, 1, 1⟩,
   ⟨11390, 2, 1, -10815⟩, ⟨11392, 50, 2, 1⟩, ⟨11499, 2, 2, 1⟩, ⟨11506, 1, 1, 1⟩, ⟨42560, 23, 2, 1⟩,
   ⟨42624, 14, 2, 1⟩, ⟨42786, 7, 2, 1⟩, ⟨42802, 31, 2, 1⟩, ⟨42873, 2, 2, 1⟩, ⟨42877, 1, 1, -35332⟩,
   ⟨42878, 5, 2, 1⟩, ⟨42891, 1, 1, 1⟩, ⟨42893, 1, 1, -42280⟩, ⟨42896, 2, 2, 1⟩, ⟨42902, 10, 2, 1⟩,
   ⟨42922, 1, 1, -42308⟩, ⟨42923, 1, 1, -42319⟩, ⟨42924, 1, 1, -42315⟩, ⟨42925, 1, 1, -42305⟩,
   ⟨42926, 1, 1, -42308⟩, ⟨42928, 1, 1, -42258⟩, ⟨42929, 1, 1, -42282⟩, ⟨42930, 1, 1, -42261⟩,
   ⟨42931, 1, 1, 928⟩, ⟨42932, 8, 2, 1⟩, ⟨42948, 1, 1, -48⟩, ⟨42949, 1, 1, -42307⟩, ⟨42950, 1, 1,
   -35384⟩, ⟨42951, 2, 2, 1⟩, ⟨42960, 1, 1, 1⟩, ⟨42966, 2, 2, 1⟩, ⟨42997, 1, 1, 1⟩, ⟨65313, 26, 1,
   32⟩, ⟨66560, 40, 1, 40⟩, ⟨66736, 36, 1, 40⟩, ⟨66928, 19, 2, 39⟩, ⟨66929, 5, 2, 39⟩, ⟨66941, 7,
   2, 39⟩, ⟨66957, 3, 2, 39⟩, ⟨66965, 1, 1, 39⟩, ⟨68736, 51, 1, 64⟩, ⟨71840, 32, 1, 32⟩, ⟨93760,
   32, 1, 32⟩, ⟨125184, 34, 1, 34⟩]

/-- Title case beyond ASCII, where it is one character. -/
def titleRuns : List CaseRun :=
  [⟨181, 1, 1, 743⟩, ⟨224, 23, 1, -32⟩, ⟨248, 7, 1, -32⟩, ⟨255, 1, 1, 121⟩, ⟨257, 24, 2, -1⟩, ⟨305,
   1, 1, -232⟩, ⟨307, 3, 2, -1⟩, ⟨314, 8, 2, -1⟩, ⟨331, 23, 2, -1⟩, ⟨378, 3, 2, -1⟩, ⟨383, 1, 1,
   -300⟩, ⟨384, 1, 1, 195⟩, ⟨387, 2, 2, -1⟩, ⟨392, 1, 1, -1⟩, ⟨396, 1, 1, -1⟩, ⟨402, 1, 1, -1⟩,
   ⟨405, 1, 1, 97⟩, ⟨409, 1, 1, -1⟩, ⟨410, 1, 1, 163⟩, ⟨414, 1, 1, 130⟩, ⟨417, 3, 2, -1⟩, ⟨424, 1,
   1, -1⟩, ⟨429, 1, 1, -1⟩, ⟨432, 1, 1, -1⟩, ⟨436, 2, 2, -1⟩, ⟨441, 1, 1, -1⟩, ⟨445, 1, 1, -1⟩,
   ⟨447, 1, 1, 56⟩, ⟨452, 1, 1, 1⟩, ⟨454, 1, 1, -1⟩, ⟨455, 1, 1, 1⟩, ⟨457, 1, 1, -1⟩, ⟨458, 1, 1,
   1⟩, ⟨460, 9, 2, -1⟩, ⟨477, 1, 1, -79⟩, ⟨479, 9, 2, -1⟩, ⟨497, 1, 1, 1⟩, ⟨499, 2, 2, -1⟩, ⟨505,
   20, 2, -1⟩, ⟨547, 9, 2, -1⟩, ⟨572, 1, 1, -1⟩, ⟨575, 2, 1, 10815⟩, ⟨578, 1, 1, -1⟩, ⟨583, 5, 2,
   -1⟩, ⟨592, 1, 1, 10783⟩, ⟨593, 1, 1, 10780⟩, ⟨594, 1, 1, 10782⟩, ⟨595, 1, 1, -210⟩, ⟨596, 1, 1,
   -206⟩, ⟨598, 2, 1, -205⟩, ⟨601, 1, 1, -202⟩, ⟨603, 1, 1, -203⟩, ⟨604, 1, 1, 42319⟩, ⟨608, 1, 1,
   -205⟩, ⟨609, 1, 1, 42315⟩, ⟨611, 1, 1, -207⟩, ⟨613, 1, 1, 42280⟩, ⟨614, 1, 1, 42308⟩, ⟨616, 1,
   1, -209⟩, ⟨617, 1, 1, -211⟩, ⟨618, 1, 1, 42308⟩, ⟨619, 1, 1, 10743⟩, ⟨620, 1, 1, 42305⟩, ⟨623,
   1, 1, -211⟩, ⟨625, 1, 1, 10749⟩, ⟨626, 1, 1, -213⟩, ⟨629, 1, 1, -214⟩, ⟨637, 1, 1, 10727⟩, ⟨640,
   1, 1, -218⟩, ⟨642, 1, 1, 42307⟩, ⟨643, 1, 1, -218⟩, ⟨647, 1, 1, 42282⟩, ⟨648, 1, 1, -218⟩, ⟨649,
   1, 1, -69⟩, ⟨650, 2, 1, -217⟩, ⟨652, 1, 1, -71⟩, ⟨658, 1, 1, -219⟩, ⟨669, 1, 1, 42261⟩, ⟨670, 1,
   1, 42258⟩, ⟨837, 1, 1, 84⟩, ⟨881, 2, 2, -1⟩, ⟨887, 1, 1, -1⟩, ⟨891, 3, 1, 130⟩, ⟨940, 1, 1,
   -38⟩, ⟨941, 3, 1, -37⟩, ⟨945, 17, 1, -32⟩, ⟨962, 1, 1, -31⟩, ⟨963, 9, 1, -32⟩, ⟨972, 1, 1, -64⟩,
   ⟨973, 2, 1, -63⟩, ⟨976, 1, 1, -62⟩, ⟨977, 1, 1, -57⟩, ⟨981, 1, 1, -47⟩, ⟨982, 1, 1, -54⟩, ⟨983,
   1, 1, -8⟩, ⟨985, 12, 2, -1⟩, ⟨1008, 1, 1, -86⟩, ⟨1009, 1, 1, -80⟩, ⟨1010, 1, 1, 7⟩, ⟨1011, 1, 1,
   -116⟩, ⟨1013, 1, 1, -96⟩, ⟨1016, 1, 1, -1⟩, ⟨1019, 1, 1, -1⟩, ⟨1072, 32, 1, -32⟩, ⟨1104, 16, 1,
   -80⟩, ⟨1121, 17, 2, -1⟩, ⟨1163, 27, 2, -1⟩, ⟨1218, 7, 2, -1⟩, ⟨1231, 1, 1, -15⟩, ⟨1233, 48, 2,
   -1⟩, ⟨1377, 38, 1, -48⟩, ⟨5112, 6, 1, -8⟩, ⟨7296, 1, 1, -6254⟩, ⟨7297, 1, 1, -6253⟩, ⟨7298, 1,
   1, -6244⟩, ⟨7299, 2, 1, -6242⟩, ⟨7301, 1, 1, -6243⟩, ⟨7302, 1, 1, -6236⟩, ⟨7303, 1, 1, -6181⟩,
   ⟨7304, 1, 1, 35266⟩, ⟨7545, 1, 1, 35332⟩, ⟨7549, 1, 1, 3814⟩, ⟨7566, 1, 1, 35384⟩, ⟨7681, 75, 2,
   -1⟩, ⟨7835, 1, 1, -59⟩, ⟨7841, 48, 2, -1⟩, ⟨7936, 8, 1, 8⟩, ⟨7952, 6, 1, 8⟩, ⟨7968, 8, 1, 8⟩,
   ⟨7984, 8, 1, 8⟩, ⟨8000, 6, 1, 8⟩, ⟨8017, 4, 2, 8⟩, ⟨8032, 8, 1, 8⟩, ⟨8048, 2, 1, 74⟩, ⟨8050, 4,
   1, 86⟩, ⟨8054, 2, 1, 100⟩, ⟨8056, 2, 1, 128⟩, ⟨8058, 2, 1, 112⟩, ⟨8060, 2, 1, 126⟩, ⟨8064, 8, 1,
   8⟩, ⟨8080, 8, 1, 8⟩, ⟨8096, 8, 1, 8⟩, ⟨8112, 2, 1, 8⟩, ⟨8115, 1, 1, 9⟩, ⟨8126, 1, 1, -7205⟩,
   ⟨8131, 1, 1, 9⟩, ⟨8144, 2, 1, 8⟩, ⟨8160, 2, 1, 8⟩, ⟨8165, 1, 1, 7⟩, ⟨8179, 1, 1, 9⟩, ⟨8526, 1,
   1, -28⟩, ⟨8560, 16, 1, -16⟩, ⟨8580, 1, 1, -1⟩, ⟨9424, 26, 1, -26⟩, ⟨11312, 48, 1, -48⟩, ⟨11361,
   1, 1, -1⟩, ⟨11365, 1, 1, -10795⟩, ⟨11366, 1, 1, -10792⟩, ⟨11368, 3, 2, -1⟩, ⟨11379, 1, 1, -1⟩,
   ⟨11382, 1, 1, -1⟩, ⟨11393, 50, 2, -1⟩, ⟨11500, 2, 2, -1⟩, ⟨11507, 1, 1, -1⟩, ⟨11520, 38, 1,
   -7264⟩, ⟨11559, 1, 1, -7264⟩, ⟨11565, 1, 1, -7264⟩, ⟨42561, 23, 2, -1⟩, ⟨42625, 14, 2, -1⟩,
   ⟨42787, 7, 2, -1⟩, ⟨42803, 31, 2, -1⟩, ⟨42874, 2, 2, -1⟩, ⟨42879, 5, 2, -1⟩, ⟨42892, 1, 1, -1⟩,
   ⟨42897, 2, 2, -1⟩, ⟨42900, 1, 1, 48⟩, ⟨42903, 10, 2, -1⟩, ⟨42933, 8, 2, -1⟩, ⟨42952, 2, 2, -1⟩,
   ⟨42961, 1, 1, -1⟩, ⟨42967, 2, 2, -1⟩, ⟨42998, 1, 1, -1⟩, ⟨43859, 1, 1, -928⟩, ⟨43888, 80, 1,
   -38864⟩, ⟨65345, 26, 1, -32⟩, ⟨66600, 40, 1, -40⟩, ⟨66776, 36, 1, -40⟩, ⟨66967, 19, 2, -39⟩,
   ⟨66968, 5, 2, -39⟩, ⟨66980, 7, 2, -39⟩, ⟨66996, 3, 2, -39⟩, ⟨67004, 1, 1, -39⟩, ⟨68800, 51, 1,
   -64⟩, ⟨71872, 32, 1, -32⟩, ⟨93792, 32, 1, -32⟩, ⟨125218, 34, 1, -34⟩]

/-- Title case that takes several characters. -/
def titleExpansions : List (Nat × List Nat) :=
  [(223, [83, 115]), (329, [700, 78]), (496, [74, 780]), (912, [921, 776, 769]), (944, [933, 776,
   769]), (1415, [1333, 1410]), (7830, [72, 817]), (7831, [84, 776]), (7832, [87, 778]), (7833,
   [89, 778]), (7834, [65, 702]), (8016, [933, 787]), (8018, [933, 787, 768]), (8020, [933, 787,
   769]), (8022, [933, 787, 834]), (8114, [8122, 837]), (8116, [902, 837]), (8118, [913, 834]),
   (8119, [913, 834, 837]), (8130, [8138, 837]), (8132, [905, 837]), (8134, [919, 834]), (8135,
   [919, 834, 837]), (8146, [921, 776, 768]), (8147, [921, 776, 769]), (8150, [921, 834]), (8151,
   [921, 776, 834]), (8162, [933, 776, 768]), (8163, [933, 776, 769]), (8164, [929, 787]), (8166,
   [933, 834]), (8167, [933, 776, 834]), (8178, [8186, 837]), (8180, [911, 837]), (8182, [937,
   834]), (8183, [937, 834, 837]), (64256, [70, 102]), (64257, [70, 105]), (64258, [70, 108]),
   (64259, [70, 102, 105]), (64260, [70, 102, 108]), (64261, [83, 116]), (64262, [83, 116]),
   (64275, [1348, 1398]), (64276, [1348, 1381]), (64277, [1348, 1387]), (64278, [1358, 1398]),
   (64279, [1348, 1389])]

/-- The characters that make a sigma after them final, counted from zero. -/
def casedRuns : List Nat :=
  [65, 26, 6, 26, 47, 1, 10, 1, 4, 1, 5, 23, 1, 31, 1, 195, 1, 4, 4, 208, 1, 27, 192, 4, 2, 2, 3,
   3, 1, 1, 6, 1, 1, 3, 1, 1, 1, 20, 1, 83, 1, 139, 8, 166, 1, 38, 9, 41, 2839, 38, 1, 1, 5, 1, 2,
   43, 2, 3, 672, 86, 2, 6, 2178, 9, 7, 43, 2, 3, 64, 44, 63, 13, 1, 34, 101, 278, 2, 6, 2, 38, 2,
   6, 2, 8, 1, 1, 1, 1, 1, 1, 1, 31, 2, 53, 1, 7, 1, 1, 3, 3, 1, 7, 3, 4, 2, 6, 4, 13, 5, 3, 1, 7,
   261, 1, 4, 1, 2, 10, 1, 1, 3, 5, 6, 1, 1, 1, 1, 1, 1, 4, 1, 6, 4, 1, 2, 4, 5, 5, 4, 1, 17, 32,
   3, 2, 817, 52, 1814, 124, 2, 103, 6, 4, 3, 2, 12, 38, 1, 1, 5, 1, 30994, 46, 18, 28, 134, 78, 1,
   23, 3, 4, 1, 59, 5, 2, 1, 1, 1, 5, 27, 2, 3, 1, 821, 43, 5, 9, 7, 80, 20288, 7, 12, 5, 1033, 26,
   6, 26, 1189, 80, 96, 36, 4, 36, 116, 11, 1, 15, 1, 7, 1, 2, 1, 11, 1, 15, 1, 7, 1, 2, 1731, 51,
   13, 51, 2989, 64, 21856, 64, 25984, 85, 1, 71, 1, 2, 2, 1, 2, 2, 2, 4, 1, 12, 1, 1, 1, 7, 1, 65,
   1, 4, 2, 8, 1, 7, 1, 28, 1, 4, 1, 5, 1, 1, 3, 7, 1, 340, 2, 25, 1, 25, 1, 31, 1, 25, 1, 31, 1,
   25, 1, 31, 1, 25, 1, 31, 1, 25, 1, 8, 1844, 10, 1, 20, 2529, 68, 2028, 26, 6, 26, 6, 26]

/-- The characters that are passed over when looking for the end of a word, counted from zero. -/
def caseIgnorableRuns : List Nat :=
  [39, 1, 6, 1, 11, 1, 35, 1, 1, 1, 71, 1, 4, 1, 1, 1, 4, 1, 2, 2, 503, 192, 4, 2, 4, 1, 9, 2, 1,
   1, 251, 7, 207, 1, 5, 1, 49, 45, 1, 1, 1, 2, 1, 2, 1, 1, 44, 1, 11, 6, 10, 11, 1, 1, 35, 1, 10,
   21, 16, 1, 101, 8, 1, 10, 1, 4, 33, 1, 1, 1, 30, 27, 91, 11, 58, 11, 4, 1, 2, 1, 24, 24, 43, 3,
   44, 1, 7, 2, 6, 8, 41, 58, 55, 1, 1, 1, 4, 8, 4, 1, 3, 7, 10, 2, 13, 1, 15, 1, 58, 1, 4, 4, 8,
   1, 20, 2, 26, 1, 2, 2, 57, 1, 4, 2, 4, 2, 2, 3, 3, 1, 30, 2, 3, 1, 11, 2, 57, 1, 4, 5, 1, 2, 4,
   1, 20, 2, 22, 6, 1, 1, 58, 1, 2, 1, 1, 4, 8, 1, 7, 2, 11, 2, 30, 1, 61, 1, 12, 1, 50, 1, 3, 1,
   55, 1, 1, 3, 5, 3, 1, 4, 7, 2, 11, 2, 29, 1, 58, 1, 2, 1, 6, 1, 5, 2, 20, 2, 28, 2, 57, 2, 4, 4,
   8, 1, 20, 2, 29, 1, 72, 1, 7, 3, 1, 1, 90, 1, 2, 7, 11, 9, 98, 1, 2, 9, 9, 1, 1, 6, 74, 2, 27,
   1, 1, 1, 1, 1, 55, 14, 1, 5, 1, 2, 5, 11, 1, 36, 9, 1, 102, 4, 1, 6, 1, 2, 2, 2, 25, 2, 4, 3,
   16, 4, 13, 1, 2, 2, 6, 1, 15, 1, 94, 1, 608, 3, 946, 3, 29, 2, 30, 2, 30, 2, 64, 2, 1, 7, 8, 1,
   2, 11, 3, 1, 5, 1, 45, 5, 51, 1, 65, 2, 34, 1, 118, 3, 4, 2, 9, 1, 6, 3, 219, 2, 2, 1, 58, 1, 1,
   7, 1, 1, 1, 1, 2, 8, 6, 10, 2, 1, 39, 1, 8, 31, 49, 4, 48, 1, 1, 5, 1, 1, 5, 1, 40, 9, 12, 2,
   32, 4, 2, 2, 1, 3, 56, 1, 1, 2, 3, 1, 1, 3, 58, 8, 2, 2, 64, 6, 82, 3, 1, 13, 1, 7, 4, 1, 6, 1,
   3, 2, 50, 63, 13, 1, 34, 101, 445, 1, 1, 3, 11, 3, 13, 3, 13, 3, 13, 2, 12, 5, 8, 2, 10, 1, 2,
   1, 2, 5, 49, 5, 1, 10, 1, 1, 13, 1, 16, 13, 51, 33, 2955, 2, 113, 3, 125, 1, 15, 1, 96, 32, 47,
   1, 469, 1, 36, 4, 3, 5, 5, 1, 93, 6, 93, 3, 28438, 1, 1250, 6, 270, 1, 98, 4, 1, 10, 1, 1, 28,
   4, 80, 2, 14, 34, 78, 1, 23, 3, 103, 3, 3, 2, 8, 1, 3, 1, 4, 1, 25, 2, 5, 1, 151, 2, 26, 18, 13,
   1, 38, 8, 25, 11, 46, 3, 48, 1, 2, 4, 2, 2, 17, 1, 21, 2, 66, 6, 2, 2, 2, 2, 12, 1, 8, 1, 35, 1,
   11, 1, 51, 1, 1, 3, 2, 2, 5, 2, 1, 1, 27, 1, 14, 2, 5, 2, 1, 1, 100, 5, 9, 3, 121, 1, 2, 1, 4,
   1, 20272, 1, 147, 17, 573, 16, 3, 1, 12, 16, 34, 1, 2, 1, 169, 1, 7, 1, 6, 1, 11, 1, 35, 1, 1,
   1, 47, 1, 45, 2, 67, 1, 21, 3, 513, 1, 226, 1, 149, 5, 1029, 6, 1, 42, 1, 9, 582, 3, 1, 2, 5, 4,
   40, 3, 4, 1, 165, 2, 573, 4, 387, 2, 153, 11, 49, 4, 123, 1, 54, 15, 41, 1, 2, 2, 10, 3, 49, 4,
   2, 2, 2, 1, 4, 1, 10, 1, 50, 3, 36, 5, 1, 8, 62, 1, 12, 2, 52, 9, 10, 4, 2, 1, 95, 3, 2, 1, 1,
   2, 6, 1, 160, 1, 3, 8, 21, 2, 57, 2, 3, 1, 37, 7, 3, 5, 195, 8, 2, 3, 1, 1, 23, 1, 84, 6, 1, 1,
   4, 2, 1, 2, 238, 4, 6, 2, 1, 2, 27, 2, 85, 8, 2, 1, 1, 2, 106, 1, 1, 1, 2, 6, 1, 1, 101, 3, 2,
   4, 1, 5, 259, 9, 1, 2, 256, 2, 1, 1, 4, 1, 144, 4, 2, 2, 4, 1, 32, 10, 40, 6, 2, 4, 8, 1, 9, 6,
   2, 3, 46, 13, 1, 2, 406, 7, 1, 6, 1, 1, 82, 22, 2, 7, 1, 2, 1, 2, 122, 6, 3, 1, 1, 2, 1, 7, 1,
   1, 72, 2, 3, 1, 1, 1, 347, 2, 5435, 9, 14007, 5, 59, 7, 9, 4, 1035, 1, 63, 17, 64, 2, 1, 2,
   16395, 4, 1, 7, 1, 2, 3230, 2, 1, 4, 4700, 46, 2, 23, 544, 3, 9, 16, 2, 7, 30, 4, 148, 3, 1979,
   55, 4, 50, 8, 1, 14, 1, 22, 5, 1, 15, 1360, 7, 1, 17, 2, 7, 1, 2, 1, 5, 261, 14, 368, 1, 61, 4,
   1504, 7, 109, 8, 2735, 5, 789505, 1, 30, 96, 128, 240]

/-- The lower case of a character by itself. -/
def lowerChar (c : Char) : Text :=
  if 'A' ≤ c && c ≤ 'Z' then [Char.ofNat (c.toNat + 32)]
  else if c.toNat < 0x80 then [c]
  else if c.toNat = 0x130 then ['i', Char.ofNat 0x307]
  else [Char.ofNat (mapCase lowerRuns c.toNat)]

/-- The title case of a character. -/
def titleChar (c : Char) : Text :=
  if 'a' ≤ c && c ≤ 'z' then [Char.ofNat (c.toNat - 32)]
  else if c.toNat < 0x80 then [c]
  else
    match titleExpansions.find? (·.1 == c.toNat) with
    | some (_, image) => image.map Char.ofNat
    | none => [Char.ofNat (mapCase titleRuns c.toNat)]

/-- Whether the first character that counts is a cased one. -/
def meetsCased (t : Text) : Bool :=
  match t.dropWhile fun c => inRuns caseIgnorableRuns c.toNat with
  | c :: _ => inRuns casedRuns c.toNat
  | [] => false

/-- Whether a letter between `behind` (read backwards) and `ahead` ends a word. -/
def endsWord (behind ahead : Text) : Bool :=
  meetsCased behind && !meetsCased ahead

/-- The lower case of a text that follows `behind` (read backwards). -/
def lowerAfter (behind : Text) : Text → Text
  | [] => []
  | c :: cs =>
    (if c = 'Σ' then [if endsWord behind cs then 'ς' else 'σ'] else lowerChar c)
      ++ lowerAfter (c :: behind) cs

/-- Title case for the first character, lower case for the rest. -/
def capitalize : Text → Text
  | [] => []
  | c :: cs => titleChar c ++ lowerAfter [c] cs

end Recast
