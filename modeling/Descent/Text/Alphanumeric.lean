import Descent.Text.Printable

/-!
# Letters and digits of all scripts

`alphanumericRanges` lists the letters and the characters that stand for a number, as pairs of a
first code point and a length, in ascending order.
-/

namespace Descent.Text

/-- The runs of letters and numerals: first code point and length. -/
def alphanumericRanges : List (Nat × Nat) := [
  (48, 10), (65, 26), (97, 26), (170, 1), (178, 2), (181, 1), (185, 2), (188, 3), (192, 23), (216,
  31), (248, 458), (710, 12), (736, 5), (748, 1), (750, 1), (880, 5), (886, 2), (890, 4), (895, 1),
  (902, 1), (904, 3), (908, 1), (910, 20), (931, 83), (1015, 139), (1162, 166), (1329, 38), (1369,
  1), (1376, 41), (1488, 27), (1519, 4), (1568, 43), (1632, 10), (1646, 2), (1649, 99), (1749, 1),
  (1765, 2), (1774, 15), (1791, 1), (1808, 1), (1810, 30), (1869, 89), (1969, 1), (1984, 43),
  (2036, 2), (2042, 1), (2048, 22), (2074, 1), (2084, 1), (2088, 1), (2112, 25), (2144, 11), (2160,
  24), (2185, 6), (2208, 42), (2308, 54), (2365, 1), (2384, 1), (2392, 10), (2406, 10), (2417, 16),
  (2437, 8), (2447, 2), (2451, 22), (2474, 7), (2482, 1), (2486, 4), (2493, 1), (2510, 1), (2524,
  2), (2527, 3), (2534, 12), (2548, 6), (2556, 1), (2565, 6), (2575, 2), (2579, 22), (2602, 7),
  (2610, 2), (2613, 2), (2616, 2), (2649, 4), (2654, 1), (2662, 10), (2674, 3), (2693, 9), (2703,
  3), (2707, 22), (2730, 7), (2738, 2), (2741, 5), (2749, 1), (2768, 1), (2784, 2), (2790, 10),
  (2809, 1), (2821, 8), (2831, 2), (2835, 22), (2858, 7), (2866, 2), (2869, 5), (2877, 1), (2908,
  2), (2911, 3), (2918, 10), (2929, 7), (2947, 1), (2949, 6), (2958, 3), (2962, 4), (2969, 2),
  (2972, 1), (2974, 2), (2979, 2), (2984, 3), (2990, 12), (3024, 1), (3046, 13), (3077, 8), (3086,
  3), (3090, 23), (3114, 16), (3133, 1), (3160, 3), (3165, 1), (3168, 2), (3174, 10), (3192, 7),
  (3200, 1), (3205, 8), (3214, 3), (3218, 23), (3242, 10), (3253, 5), (3261, 1), (3293, 2), (3296,
  2), (3302, 10), (3313, 2), (3332, 9), (3342, 3), (3346, 41), (3389, 1), (3406, 1), (3412, 3),
  (3416, 10), (3430, 19), (3450, 6), (3461, 18), (3482, 24), (3507, 9), (3517, 1), (3520, 7),
  (3558, 10), (3585, 48), (3634, 2), (3648, 7), (3664, 10), (3713, 2), (3716, 1), (3718, 5), (3724,
  24), (3749, 1), (3751, 10), (3762, 2), (3773, 1), (3776, 5), (3782, 1), (3792, 10), (3804, 4),
  (3840, 1), (3872, 20), (3904, 8), (3913, 36), (3976, 5), (4096, 43), (4159, 11), (4176, 6),
  (4186, 4), (4193, 1), (4197, 2), (4206, 3), (4213, 13), (4238, 1), (4240, 10), (4256, 38), (4295,
  1), (4301, 1), (4304, 43), (4348, 333), (4682, 4), (4688, 7), (4696, 1), (4698, 4), (4704, 41),
  (4746, 4), (4752, 33), (4786, 4), (4792, 7), (4800, 1), (4802, 4), (4808, 15), (4824, 57), (4882,
  4), (4888, 67), (4969, 20), (4992, 16), (5024, 86), (5112, 6), (5121, 620), (5743, 17), (5761,
  26), (5792, 75), (5870, 11), (5888, 18), (5919, 19), (5952, 18), (5984, 13), (5998, 3), (6016,
  52), (6103, 1), (6108, 1), (6112, 10), (6128, 10), (6160, 10), (6176, 89), (6272, 5), (6279, 34),
  (6314, 1), (6320, 70), (6400, 31), (6470, 40), (6512, 5), (6528, 44), (6576, 26), (6608, 11),
  (6656, 23), (6688, 53), (6784, 10), (6800, 10), (6823, 1), (6917, 47), (6981, 8), (6992, 10),
  (7043, 30), (7086, 56), (7168, 36), (7232, 10), (7245, 49), (7296, 9), (7312, 43), (7357, 3),
  (7401, 4), (7406, 6), (7413, 2), (7418, 1), (7424, 192), (7680, 278), (7960, 6), (7968, 38),
  (8008, 6), (8016, 8), (8025, 1), (8027, 1), (8029, 1), (8031, 31), (8064, 53), (8118, 7), (8126,
  1), (8130, 3), (8134, 7), (8144, 4), (8150, 6), (8160, 13), (8178, 3), (8182, 7), (8304, 2),
  (8308, 6), (8319, 11), (8336, 13), (8450, 1), (8455, 1), (8458, 10), (8469, 1), (8473, 5), (8484,
  1), (8486, 1), (8488, 1), (8490, 4), (8495, 11), (8508, 4), (8517, 5), (8526, 1), (8528, 58),
  (9312, 60), (9450, 22), (10102, 30), (11264, 229), (11499, 4), (11506, 2), (11517, 1), (11520,
  38), (11559, 1), (11565, 1), (11568, 56), (11631, 1), (11648, 23), (11680, 7), (11688, 7),
  (11696, 7), (11704, 7), (11712, 7), (11720, 7), (11728, 7), (11736, 7), (11823, 1), (12293, 3),
  (12321, 9), (12337, 5), (12344, 5), (12353, 86), (12445, 3), (12449, 90), (12540, 4), (12549,
  43), (12593, 94), (12690, 4), (12704, 32), (12784, 16), (12832, 10), (12872, 8), (12881, 15),
  (12928, 10), (12977, 15), (13312, 6592), (19968, 22157), (42192, 46), (42240, 269), (42512, 28),
  (42560, 47), (42623, 31), (42656, 80), (42775, 9), (42786, 103), (42891, 64), (42960, 2), (42963,
  1), (42965, 5), (42994, 16), (43011, 3), (43015, 4), (43020, 23), (43056, 6), (43072, 52),
  (43138, 50), (43216, 10), (43250, 6), (43259, 1), (43261, 2), (43264, 38), (43312, 23), (43360,
  29), (43396, 47), (43471, 11), (43488, 5), (43494, 25), (43520, 41), (43584, 3), (43588, 8),
  (43600, 10), (43616, 23), (43642, 1), (43646, 50), (43697, 1), (43701, 2), (43705, 5), (43712,
  1), (43714, 1), (43739, 3), (43744, 11), (43762, 3), (43777, 6), (43785, 6), (43793, 6), (43808,
  7), (43816, 7), (43824, 43), (43868, 14), (43888, 115), (44016, 10), (44032, 11172), (55216, 23),
  (55243, 49), (63744, 366), (64112, 106), (64256, 7), (64275, 5), (64285, 1), (64287, 10), (64298,
  13), (64312, 5), (64318, 1), (64320, 2), (64323, 2), (64326, 108), (64467, 363), (64848, 64),
  (64914, 54), (65008, 12), (65136, 5), (65142, 135), (65296, 10), (65313, 26), (65345, 26),
  (65382, 89), (65474, 6), (65482, 6), (65490, 6), (65498, 3), (65536, 12), (65549, 26), (65576,
  19), (65596, 2), (65599, 15), (65616, 14), (65664, 123), (65799, 45), (65856, 57), (65930, 2),
  (66176, 29), (66208, 49), (66273, 27), (66304, 36), (66349, 30), (66384, 38), (66432, 30),
  (66464, 36), (66504, 8), (66513, 5), (66560, 158), (66720, 10), (66736, 36), (66776, 36), (66816,
  40), (66864, 52), (66928, 11), (66940, 15), (66956, 7), (66964, 2), (66967, 11), (66979, 15),
  (66995, 7), (67003, 2), (67072, 311), (67392, 22), (67424, 8), (67456, 6), (67463, 42), (67506,
  9), (67584, 6), (67592, 1), (67594, 44), (67639, 2), (67644, 1), (67647, 23), (67672, 31),
  (67705, 38), (67751, 9), (67808, 19), (67828, 2), (67835, 33), (67872, 26), (67968, 56), (68028,
  20), (68050, 47), (68112, 4), (68117, 3), (68121, 29), (68160, 9), (68192, 31), (68224, 32),
  (68288, 8), (68297, 28), (68331, 5), (68352, 54), (68416, 22), (68440, 27), (68472, 26), (68521,
  7), (68608, 73), (68736, 51), (68800, 51), (68858, 42), (68912, 10), (69216, 31), (69248, 42),
  (69296, 2), (69376, 40), (69424, 22), (69457, 4), (69488, 18), (69552, 28), (69600, 23), (69635,
  53), (69714, 30), (69745, 2), (69749, 1), (69763, 45), (69840, 25), (69872, 10), (69891, 36),
  (69942, 10), (69956, 1), (69959, 1), (69968, 35), (70006, 1), (70019, 48), (70081, 4), (70096,
  11), (70108, 1), (70113, 20), (70144, 18), (70163, 25), (70272, 7), (70280, 1), (70282, 4),
  (70287, 15), (70303, 10), (70320, 47), (70384, 10), (70405, 8), (70415, 2), (70419, 22), (70442,
  7), (70450, 2), (70453, 5), (70461, 1), (70480, 1), (70493, 5), (70656, 53), (70727, 4), (70736,
  10), (70751, 3), (70784, 48), (70852, 2), (70855, 1), (70864, 10), (71040, 47), (71128, 4),
  (71168, 48), (71236, 1), (71248, 10), (71296, 43), (71352, 1), (71360, 10), (71424, 27), (71472,
  12), (71488, 7), (71680, 44), (71840, 83), (71935, 8), (71945, 1), (71948, 8), (71957, 2),
  (71960, 24), (71999, 1), (72001, 1), (72016, 10), (72096, 8), (72106, 39), (72161, 1), (72163,
  1), (72192, 1), (72203, 40), (72250, 1), (72272, 1), (72284, 46), (72349, 1), (72368, 73),
  (72704, 9), (72714, 37), (72768, 1), (72784, 29), (72818, 30), (72960, 7), (72968, 2), (72971,
  38), (73030, 1), (73040, 10), (73056, 6), (73063, 2), (73066, 32), (73112, 1), (73120, 10),
  (73440, 19), (73648, 1), (73664, 21), (73728, 922), (74752, 111), (74880, 196), (77712, 97),
  (77824, 1071), (82944, 583), (92160, 569), (92736, 31), (92768, 10), (92784, 79), (92864, 10),
  (92880, 30), (92928, 48), (92992, 4), (93008, 10), (93019, 7), (93027, 21), (93053, 19), (93760,
  87), (93952, 75), (94032, 1), (94099, 13), (94176, 2), (94179, 1), (94208, 6136), (100352, 1238),
  (101632, 9), (110576, 4), (110581, 7), (110589, 2), (110592, 291), (110928, 3), (110948, 4),
  (110960, 396), (113664, 107), (113776, 13), (113792, 9), (113808, 10), (119520, 20), (119648,
  25), (119808, 85), (119894, 71), (119966, 2), (119970, 1), (119973, 2), (119977, 4), (119982,
  12), (119995, 1), (119997, 7), (120005, 65), (120071, 4), (120077, 8), (120086, 7), (120094, 28),
  (120123, 4), (120128, 5), (120134, 1), (120138, 7), (120146, 340), (120488, 25), (120514, 25),
  (120540, 31), (120572, 25), (120598, 31), (120630, 25), (120656, 31), (120688, 25), (120714, 31),
  (120746, 25), (120772, 8), (120782, 50), (122624, 31), (123136, 45), (123191, 7), (123200, 10),
  (123214, 1), (123536, 30), (123584, 44), (123632, 10), (124896, 7), (124904, 4), (124909, 2),
  (124912, 15), (124928, 197), (125127, 9), (125184, 68), (125259, 1), (125264, 10), (126065, 59),
  (126125, 3), (126129, 4), (126209, 45), (126255, 15), (126464, 4), (126469, 27), (126497, 2),
  (126500, 1), (126503, 1), (126505, 10), (126516, 4), (126521, 1), (126523, 1), (126530, 1),
  (126535, 1), (126537, 1), (126539, 1), (126541, 3), (126545, 2), (126548, 1), (126551, 1),
  (126553, 1), (126555, 1), (126557, 1), (126559, 1), (126561, 2), (126564, 1), (126567, 4),
  (126572, 7), (126580, 4), (126585, 4), (126590, 1), (126592, 10), (126603, 17), (126625, 3),
  (126629, 5), (126635, 17), (127232, 13), (130032, 10), (131072, 42720), (173824, 4153), (177984,
  222), (178208, 5762), (183984, 7473), (194560, 542), (196608, 4939)]

/-- Whether a character is a letter, a numeral or an underscore. -/
def isWordChar (c : Char) : Bool := c == '_' || inRanges c.toNat alphanumericRanges

end Descent.Text
