import UiMarkdown.Text.CharSet

/-!
# Punctuation and symbols

Emphasis in Markdown depends on whether the neighbours of a delimiter are
punctuation marks or symbols.
-/

namespace UiMarkdown

namespace Text

def markBounds : Array Nat := #[
  33, 48, 58, 65, 91, 97, 123, 127, 161, 170, 171, 173, 174, 178, 180, 181, 182, 185, 187,
  188, 191, 192, 215, 216, 247, 248, 706, 710, 722, 736, 741, 748, 749, 750, 751, 768, 885,
  886, 894, 895, 900, 902, 903, 904, 1014, 1015, 1154, 1155, 1370, 1376, 1417, 1419, 1421,
  1424, 1470, 1471, 1472, 1473, 1475, 1476, 1478, 1479, 1523, 1525, 1542, 1552, 1563, 1564,
  1566, 1568, 1642, 1646, 1748, 1749, 1758, 1759, 1769, 1770, 1789, 1791, 1792, 1806, 2038,
  2042, 2096, 2111, 2142, 2143, 2404, 2406, 2416, 2417, 2546, 2548, 2554, 2556, 2800, 2802,
  2928, 2929, 3059, 3067, 3199, 3200, 3449, 3450, 3572, 3573, 3647, 3648, 3663, 3664, 3674,
  3676, 3841, 3864, 3866, 3872, 3892, 3893, 3894, 3895, 3896, 3897, 3898, 3902, 3973, 3974,
  4030, 4038, 4039, 4045, 4046, 4059, 4170, 4176, 4254, 4256, 4347, 4348, 4960, 4969, 5008,
  5018, 5120, 5121, 5741, 5743, 5787, 5789, 5867, 5870, 5941, 5943, 6100, 6103, 6104, 6108,
  6144, 6155, 6464, 6465, 6468, 6470, 6622, 6656, 6686, 6688, 6816, 6823, 6824, 6830, 7002,
  7019, 7028, 7037, 7164, 7168, 7227, 7232, 7294, 7296, 7360, 7368, 7379, 7380, 8125, 8126,
  8127, 8130, 8141, 8144, 8157, 8160, 8173, 8176, 8189, 8191, 8208, 8232, 8240, 8287, 8314,
  8319, 8330, 8335, 8352, 8383, 8448, 8450, 8451, 8455, 8456, 8458, 8468, 8469, 8470, 8473,
  8478, 8484, 8485, 8486, 8487, 8488, 8489, 8490, 8494, 8495, 8506, 8508, 8512, 8517, 8522,
  8526, 8527, 8528, 8586, 8588, 8592, 9211, 9216, 9255, 9280, 9291, 9372, 9450, 9472,
  10102, 10132, 11124, 11126, 11158, 11160, 11194, 11197, 11209, 11210, 11218, 11244,
  11248, 11493, 11499, 11513, 11517, 11518, 11520, 11632, 11633, 11776, 11823, 11824,
  11843, 11904, 11930, 11931, 12020, 12032, 12246, 12272, 12284, 12289, 12293, 12296,
  12321, 12336, 12337, 12342, 12344, 12349, 12352, 12443, 12445, 12448, 12449, 12539,
  12540, 12688, 12690, 12694, 12704, 12736, 12772, 12800, 12831, 12842, 12872, 12880,
  12881, 12896, 12928, 12938, 12977, 12992, 13055, 13056, 13312, 19904, 19968, 42128,
  42183, 42238, 42240, 42509, 42512, 42611, 42612, 42622, 42623, 42738, 42744, 42752,
  42775, 42784, 42786, 42889, 42891, 43048, 43052, 43062, 43066, 43124, 43128, 43214,
  43216, 43256, 43259, 43260, 43261, 43310, 43312, 43359, 43360, 43457, 43470, 43486,
  43488, 43612, 43616, 43639, 43642, 43742, 43744, 43760, 43762, 43867, 43868, 44011,
  44012, 64297, 64298, 64434, 64450, 64830, 64832, 65020, 65022, 65040, 65050, 65072,
  65107, 65108, 65127, 65128, 65132, 65281, 65296, 65306, 65313, 65339, 65345, 65371,
  65382, 65504, 65511, 65512, 65519, 65532, 65534, 65792, 65795, 65847, 65856, 65913,
  65930, 65932, 65933, 65936, 65948, 65952, 65953, 66000, 66045, 66463, 66464, 66512,
  66513, 66927, 66928, 67671, 67672, 67703, 67705, 67871, 67872, 67903, 67904, 68176,
  68185, 68223, 68224, 68296, 68297, 68336, 68343, 68409, 68416, 68505, 68509, 69703,
  69710, 69819, 69821, 69822, 69826, 69952, 69956, 70004, 70006, 70085, 70089, 70093,
  70094, 70107, 70108, 70109, 70112, 70200, 70206, 70313, 70314, 70854, 70855, 71105,
  71128, 71233, 71236, 71484, 71488, 74864, 74869, 92782, 92784, 92917, 92918, 92983,
  92992, 92996, 92998, 113820, 113821, 113823, 113824, 118784, 119030, 119040, 119079,
  119081, 119141, 119146, 119149, 119171, 119173, 119180, 119210, 119214, 119273, 119296,
  119362, 119365, 119366, 119552, 119639, 120513, 120514, 120539, 120540, 120571, 120572,
  120597, 120598, 120629, 120630, 120655, 120656, 120687, 120688, 120713, 120714, 120745,
  120746, 120771, 120772, 120832, 121344, 121399, 121403, 121453, 121461, 121462, 121476,
  121477, 121484, 126704, 126706, 126976, 127020, 127024, 127124, 127136, 127151, 127153,
  127168, 127169, 127184, 127185, 127222, 127248, 127279, 127280, 127340, 127344, 127387,
  127462, 127491, 127504, 127547, 127552, 127561, 127568, 127570, 127744, 128378, 128379,
  128420, 128421, 128721, 128736, 128749, 128752, 128756, 128768, 128884, 128896, 128981,
  129024, 129036, 129040, 129096, 129104, 129114, 129120, 129160, 129168, 129198, 129296,
  129305, 129408, 129413, 129472, 129473]

def isMark (c : Char) : Bool :=
  inSet markBounds c

def isAsciiMark (c : Char) : Bool :=
  let n := c.toNat
  (33 ≤ n && n ≤ 47) || (58 ≤ n && n ≤ 64) || (91 ≤ n && n ≤ 96) || (123 ≤ n && n ≤ 126)

end Text

end UiMarkdown
