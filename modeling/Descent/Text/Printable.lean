/-!
# Printable characters

A character is printable unless it is a control, format, surrogate, private-use or unassigned
character, or a separator other than the blank.  `hiddenRanges` lists the others as pairs of a
first code point and a length, in ascending order.
-/

namespace Descent.Text

/-- The runs of characters that are not printable: first code point and length. -/
def hiddenRanges : List (Nat × Nat) := [
  (0, 32), (127, 34), (173, 1), (888, 2), (896, 4), (907, 1), (909, 1), (930, 1), (1328, 1),
  (1367, 2), (1419, 2), (1424, 1), (1480, 8), (1515, 4), (1525, 17), (1564, 1), (1757, 1), (1806,
  2), (1867, 2), (1970, 14), (2043, 2), (2094, 2), (2111, 1), (2140, 2), (2143, 1), (2155, 5),
  (2191, 9), (2274, 1), (2436, 1), (2445, 2), (2449, 2), (2473, 1), (2481, 1), (2483, 3), (2490,
  2), (2501, 2), (2505, 2), (2511, 8), (2520, 4), (2526, 1), (2532, 2), (2559, 2), (2564, 1),
  (2571, 4), (2577, 2), (2601, 1), (2609, 1), (2612, 1), (2615, 1), (2618, 2), (2621, 1), (2627,
  4), (2633, 2), (2638, 3), (2642, 7), (2653, 1), (2655, 7), (2679, 10), (2692, 1), (2702, 1),
  (2706, 1), (2729, 1), (2737, 1), (2740, 1), (2746, 2), (2758, 1), (2762, 1), (2766, 2), (2769,
  15), (2788, 2), (2802, 7), (2816, 1), (2820, 1), (2829, 2), (2833, 2), (2857, 1), (2865, 1),
  (2868, 1), (2874, 2), (2885, 2), (2889, 2), (2894, 7), (2904, 4), (2910, 1), (2916, 2), (2936,
  10), (2948, 1), (2955, 3), (2961, 1), (2966, 3), (2971, 1), (2973, 1), (2976, 3), (2981, 3),
  (2987, 3), (3002, 4), (3011, 3), (3017, 1), (3022, 2), (3025, 6), (3032, 14), (3067, 5), (3085,
  1), (3089, 1), (3113, 1), (3130, 2), (3141, 1), (3145, 1), (3150, 7), (3159, 1), (3163, 2),
  (3166, 2), (3172, 2), (3184, 7), (3213, 1), (3217, 1), (3241, 1), (3252, 1), (3258, 2), (3269,
  1), (3273, 1), (3278, 7), (3287, 6), (3295, 1), (3300, 2), (3312, 1), (3315, 13), (3341, 1),
  (3345, 1), (3397, 1), (3401, 1), (3408, 4), (3428, 2), (3456, 1), (3460, 1), (3479, 3), (3506,
  1), (3516, 1), (3518, 2), (3527, 3), (3531, 4), (3541, 1), (3543, 1), (3552, 6), (3568, 2),
  (3573, 12), (3643, 4), (3676, 37), (3715, 1), (3717, 1), (3723, 1), (3748, 1), (3750, 1), (3774,
  2), (3781, 1), (3783, 1), (3790, 2), (3802, 2), (3808, 32), (3912, 1), (3949, 4), (3992, 1),
  (4029, 1), (4045, 1), (4059, 37), (4294, 1), (4296, 5), (4302, 2), (4681, 1), (4686, 2), (4695,
  1), (4697, 1), (4702, 2), (4745, 1), (4750, 2), (4785, 1), (4790, 2), (4799, 1), (4801, 1),
  (4806, 2), (4823, 1), (4881, 1), (4886, 2), (4955, 2), (4989, 3), (5018, 6), (5110, 2), (5118,
  2), (5760, 1), (5789, 3), (5881, 7), (5910, 9), (5943, 9), (5972, 12), (5997, 1), (6001, 1),
  (6004, 12), (6110, 2), (6122, 6), (6138, 6), (6158, 1), (6170, 6), (6265, 7), (6315, 5), (6390,
  10), (6431, 1), (6444, 4), (6460, 4), (6465, 3), (6510, 2), (6517, 11), (6572, 4), (6602, 6),
  (6619, 3), (6684, 2), (6751, 1), (6781, 2), (6794, 6), (6810, 6), (6830, 2), (6863, 49), (6989,
  3), (7039, 1), (7156, 8), (7224, 3), (7242, 3), (7305, 7), (7355, 2), (7368, 8), (7419, 5),
  (7958, 2), (7966, 2), (8006, 2), (8014, 2), (8024, 1), (8026, 1), (8028, 1), (8030, 1), (8062,
  2), (8117, 1), (8133, 1), (8148, 2), (8156, 1), (8176, 2), (8181, 1), (8191, 17), (8232, 8),
  (8287, 17), (8306, 2), (8335, 1), (8349, 3), (8385, 15), (8433, 15), (8588, 4), (9255, 25),
  (9291, 21), (11124, 2), (11158, 1), (11508, 5), (11558, 1), (11560, 5), (11566, 2), (11624, 7),
  (11633, 14), (11671, 9), (11687, 1), (11695, 1), (11703, 1), (11711, 1), (11719, 1), (11727, 1),
  (11735, 1), (11743, 1), (11870, 34), (11930, 1), (12020, 12), (12246, 26), (12284, 5), (12352,
  1), (12439, 2), (12544, 5), (12592, 1), (12687, 1), (12772, 12), (12831, 1), (42125, 3), (42183,
  9), (42540, 20), (42744, 8), (42955, 5), (42962, 1), (42964, 1), (42970, 24), (43053, 3),
  (43066, 6), (43128, 8), (43206, 8), (43226, 6), (43348, 11), (43389, 3), (43470, 1), (43482, 4),
  (43519, 1), (43575, 9), (43598, 2), (43610, 2), (43715, 24), (43767, 10), (43783, 2), (43791,
  2), (43799, 9), (43815, 1), (43823, 1), (43884, 4), (44014, 2), (44026, 6), (55204, 12), (55239,
  4), (55292, 8452), (64110, 2), (64218, 38), (64263, 12), (64280, 5), (64311, 1), (64317, 1),
  (64319, 1), (64322, 1), (64325, 1), (64451, 16), (64912, 2), (64968, 7), (64976, 32), (65050,
  6), (65107, 1), (65127, 1), (65132, 4), (65141, 1), (65277, 4), (65471, 3), (65480, 2), (65488,
  2), (65496, 2), (65501, 3), (65511, 1), (65519, 13), (65534, 2), (65548, 1), (65575, 1), (65595,
  1), (65598, 1), (65614, 2), (65630, 34), (65787, 5), (65795, 4), (65844, 3), (65935, 1), (65949,
  3), (65953, 47), (66046, 130), (66205, 3), (66257, 15), (66300, 4), (66340, 9), (66379, 5),
  (66427, 5), (66462, 1), (66500, 4), (66518, 42), (66718, 2), (66730, 6), (66772, 4), (66812, 4),
  (66856, 8), (66916, 11), (66939, 1), (66955, 1), (66963, 1), (66966, 1), (66978, 1), (66994, 1),
  (67002, 1), (67005, 67), (67383, 9), (67414, 10), (67432, 24), (67462, 1), (67505, 1), (67515,
  69), (67590, 2), (67593, 1), (67638, 1), (67641, 3), (67645, 2), (67670, 1), (67743, 8), (67760,
  48), (67827, 1), (67830, 5), (67868, 3), (67898, 5), (67904, 64), (68024, 4), (68048, 2),
  (68100, 1), (68103, 5), (68116, 1), (68120, 1), (68150, 2), (68155, 4), (68169, 7), (68185, 7),
  (68256, 32), (68327, 4), (68343, 9), (68406, 3), (68438, 2), (68467, 5), (68498, 7), (68509,
  12), (68528, 80), (68681, 55), (68787, 13), (68851, 7), (68904, 8), (68922, 294), (69247, 1),
  (69290, 1), (69294, 2), (69298, 78), (69416, 8), (69466, 22), (69514, 38), (69580, 20), (69623,
  9), (69710, 4), (69750, 9), (69821, 1), (69827, 13), (69865, 7), (69882, 6), (69941, 1), (69960,
  8), (70007, 9), (70112, 1), (70133, 11), (70162, 1), (70207, 65), (70279, 1), (70281, 1),
  (70286, 1), (70302, 1), (70314, 6), (70379, 5), (70394, 6), (70404, 1), (70413, 2), (70417, 2),
  (70441, 1), (70449, 1), (70452, 1), (70458, 1), (70469, 2), (70473, 2), (70478, 2), (70481, 6),
  (70488, 5), (70500, 2), (70509, 3), (70517, 139), (70748, 1), (70754, 30), (70856, 8), (70874,
  166), (71094, 2), (71134, 34), (71237, 11), (71258, 6), (71277, 19), (71354, 6), (71370, 54),
  (71451, 2), (71468, 4), (71495, 185), (71740, 100), (71923, 12), (71943, 2), (71946, 2), (71956,
  1), (71959, 1), (71990, 1), (71993, 2), (72007, 9), (72026, 70), (72104, 2), (72152, 2), (72165,
  27), (72264, 8), (72355, 13), (72441, 263), (72713, 1), (72759, 1), (72774, 10), (72813, 3),
  (72848, 2), (72872, 1), (72887, 73), (72967, 1), (72970, 1), (73015, 3), (73019, 1), (73022, 1),
  (73032, 8), (73050, 6), (73062, 1), (73065, 1), (73103, 1), (73106, 1), (73113, 7), (73130,
  310), (73465, 183), (73649, 15), (73714, 13), (74650, 102), (74863, 1), (74869, 11), (75076,
  2636), (77811, 13), (78895, 4049), (83527, 8633), (92729, 7), (92767, 1), (92778, 4), (92863,
  1), (92874, 6), (92910, 2), (92918, 10), (92998, 10), (93018, 1), (93026, 1), (93048, 5),
  (93072, 688), (93851, 101), (94027, 4), (94088, 7), (94112, 64), (94181, 11), (94194, 14),
  (100344, 8), (101590, 42), (101641, 8935), (110580, 1), (110588, 1), (110591, 1), (110883, 45),
  (110931, 17), (110952, 8), (111356, 2308), (113771, 5), (113789, 3), (113801, 7), (113818, 2),
  (113824, 4704), (118574, 2), (118599, 9), (118724, 60), (119030, 10), (119079, 2), (119155, 8),
  (119275, 21), (119366, 154), (119540, 12), (119639, 9), (119673, 135), (119893, 1), (119965, 1),
  (119968, 2), (119971, 2), (119975, 2), (119981, 1), (119994, 1), (119996, 1), (120004, 1),
  (120070, 1), (120075, 2), (120085, 1), (120093, 1), (120122, 1), (120127, 1), (120133, 1),
  (120135, 3), (120145, 1), (120486, 2), (120780, 2), (121484, 15), (121504, 1), (121520, 1104),
  (122655, 225), (122887, 1), (122905, 2), (122914, 1), (122917, 1), (122923, 213), (123181, 3),
  (123198, 2), (123210, 4), (123216, 320), (123567, 17), (123642, 5), (123648, 1248), (124903, 1),
  (124908, 1), (124911, 1), (124927, 1), (125125, 2), (125143, 41), (125260, 4), (125274, 4),
  (125280, 785), (126133, 76), (126270, 194), (126468, 1), (126496, 1), (126499, 1), (126501, 2),
  (126504, 1), (126515, 1), (126520, 1), (126522, 1), (126524, 6), (126531, 4), (126536, 1),
  (126538, 1), (126540, 1), (126544, 1), (126547, 1), (126549, 2), (126552, 1), (126554, 1),
  (126556, 1), (126558, 1), (126560, 1), (126563, 1), (126565, 2), (126571, 1), (126579, 1),
  (126584, 1), (126589, 1), (126591, 1), (126602, 1), (126620, 5), (126628, 1), (126634, 1),
  (126652, 52), (126706, 270), (127020, 4), (127124, 12), (127151, 2), (127168, 1), (127184, 1),
  (127222, 10), (127406, 56), (127491, 13), (127548, 4), (127561, 7), (127570, 14), (127590, 154),
  (128728, 5), (128749, 3), (128765, 3), (128884, 12), (128985, 7), (129004, 4), (129009, 15),
  (129036, 4), (129096, 8), (129114, 6), (129160, 8), (129198, 2), (129202, 78), (129620, 12),
  (129646, 2), (129653, 3), (129661, 3), (129671, 9), (129709, 3), (129723, 5), (129734, 10),
  (129754, 6), (129768, 8), (129783, 9), (129939, 1), (129995, 37), (130042, 1030), (173792, 32),
  (177977, 7), (178206, 2), (183970, 14), (191457, 3103), (195102, 1506), (201547, 716213),
  (918000, 196112)]

/-- Whether a code point lies in one of the runs, which are in ascending order. -/
def inRanges (code : Nat) : List (Nat × Nat) → Bool
  | [] => false
  | (start, length) :: rest =>
    if code < start then false
    else if code < start + length then true
    else inRanges code rest

/-- Whether a character is shown as itself in quoted text. -/
def isPrintable (c : Char) : Bool :=
  if c.toNat < 127 then decide (32 ≤ c.toNat) else !inRanges c.toNat hiddenRanges

end Descent.Text
