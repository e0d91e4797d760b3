/-!
The states of the automaton.

A state is one number. Its hexadecimal digits from the lowest on are: one for the mode in which the
next token is read, three for the row of its shifts, three for the row of its phrases, one for the
number of its reductions, and four for each reduction, two for the rule and two for the set of the
symbols before which it applies.
-/

namespace ImportGroups.Source.Automaton

def stateRows : Array Nat := #[
  0x0, 0x10010011, 0x20, 0x20033, 0x0, 0x110000042, 0x19810000004, 0x110030011, 0x20310000002,
  0x40051, 0x50063, 0x60079, 0x30710000001, 0x70051, 0x8a, 0x20410000002, 0x20510000002,
  0x4c110000001, 0x198053a20080094, 0x900a1, 0xa00b9, 0xca, 0x66210000002, 0x210000042,
  0x4c1100b00d1, 0x20610000002, 0xc00e1, 0x20810000002, 0xd00e1, 0xe00f2, 0x70510000002, 0xf0109,
  0x2bf10000002, 0x20610000002, 0x110, 0x120, 0x998083a20100137, 0x1100a1, 0x120149, 0x15a,
  0xa9810000007, 0xf0169, 0xbbf10000004, 0x170, 0x180, 0x130193, 0x42, 0x70610000002, 0x70610000002,
  0x1401a3, 0x20910000002, 0x1501b2, 0xcd8100f01c9, 0x2c010000002, 0x2be10000002, 0xdbd10000000,
  0xf01d9, 0xabf10000007, 0x1e0, 0xbc010000004, 0xbbe10000004, 0xe0310000002, 0x1601f3,
  0xe0410000002, 0x20a10000002, 0x7c210000002, 0x140203, 0x7c210150212, 0xac010000007,
  0xabe10000007, 0xe0810000002, 0x170222, 0xf8a10180231, 0xf8810190231, 0xf96101a0231,
  0xf91101b0231, 0xf92101c0231, 0xf5e101d0231, 0xf5f101e0231, 0x1f0241, 0xf6d10200251, 0x210261,
  0x220271, 0x230281, 0x240291, 0x2502a1, 0x2602b1, 0x200251, 0x270251, 0x2802c1, 0x2902d1,
  0x107d102a02e1, 0x107e102b02e1, 0x107e102c02e1, 0x107f102d02e1, 0x2e02e1, 0x674102f02f2, 0x300301,
  0x310311, 0x320321, 0x330331, 0x340341, 0x350351, 0x360361, 0x360371, 0x360381, 0x360391,
  0x3603a1, 0x3603b1, 0x3603c1, 0x3603d1, 0x3603e1, 0x3603f1, 0x360401, 0x360411, 0x360421,
  0x370431, 0x380421, 0x390441, 0x3a0451, 0x3b0461, 0x3c0471, 0x3d0481, 0x3e0481, 0x3f0491,
  0x4004a1, 0x4104b1, 0x4104c1, 0x4204d1, 0x4304e1, 0x4104f1, 0x410501, 0x440511, 0x410521,
  0x410531, 0x450541, 0x410551, 0x410561, 0x460571, 0x410581, 0x410591, 0x4705a1, 0x4105b1,
  0x4105c1, 0x4805d1, 0x4905e1, 0x4a05f1, 0x4b0601, 0x4c0611, 0x390621, 0x4d0631, 0x4e02f1,
  0x4f02f1, 0x5002f1, 0x5102f1, 0x520641, 0x530651, 0x540651, 0x550661, 0x5602f1, 0x5702f1,
  0x5802f1, 0x5902f1, 0x5a0671, 0x5b0681, 0x5c02f1, 0x5d02f1, 0x5a0691, 0x4106a1, 0x3d0651,
  0x3e0651, 0x5e06b1, 0x5f06c1, 0x6006c1, 0x6106d1, 0x5a06e1, 0x6206f1, 0x5a0701, 0x630711,
  0x640721, 0x5a0731, 0x650741, 0x5a0751, 0x660761, 0x670771, 0x5a0781, 0x680791, 0x5a07a1,
  0x6907b1, 0x6a07c1, 0x5a07d1, 0x6b07e1, 0x5a07f1, 0x6c0801, 0x6d0811, 0x5a0821, 0x6e0831,
  0x5a0841, 0x6f0851, 0x700861, 0x7102f1, 0x7202f1, 0x700851, 0x7306c1, 0x7406a1, 0x750871,
  0x760851, 0x770851, 0x7802f1, 0x790851, 0x7a0851, 0x7b0851, 0x7c06c1, 0x7d06c1, 0x7e0651,
  0x7f0651, 0x800651, 0x810651, 0x8206a1, 0x830651, 0x8406a1, 0x8506a1, 0x860651, 0x8706a1,
  0x8806a1, 0x8906a1, 0x820651, 0x840651, 0x8a0651, 0x8b0651, 0x8c0651, 0x8d0651, 0x8e02f1,
  0x8f02f1, 0x9002f1, 0x9102f1, 0x9202f1, 0x9302f1, 0x9402e1, 0x9502e1, 0x9602e1, 0x9702e1,
  0x9802e1, 0x9902e1, 0x9a0871, 0x9b0871, 0x9c0871, 0x9d0871, 0x9e0871, 0x9f0871, 0xa00431,
  0xa10431, 0xa20431, 0xa30431, 0xa40431, 0xa50431, 0xa600a1, 0x820881, 0xa702f1, 0xa806c1,
  0x8206c1, 0x8406c1, 0xa906c1, 0xaa06c1, 0xab06c1, 0xac06c1, 0xa60651, 0x820891, 0x5a06a1,
  0xad02f1, 0x8e08a1, 0xae06c1, 0xaf02e1, 0x9408b1, 0xa606a1, 0x8208c1, 0xa606c1, 0x9a08d1,
  0xb00871, 0xa008e1, 0xa608f1, 0xb10431, 0xb206a1, 0xb30651, 0xb40651, 0xb500a1, 0xb606a1,
  0xb70651, 0xb80651, 0xb900a1, 0xba06a1, 0xbb0651, 0xbc0651, 0xbd00a1, 0xbe06a1, 0xbf0651,
  0xc00651, 0xc100a1, 0xc206a1, 0xc30651, 0xc40651, 0x1198053a20c50903, 0x198053a20080914,
  0x664123720c60924, 0x198053a20080934, 0x13bb10c70944, 0x13bc10c70944, 0x14bc10c70954,
  0x15bc10c70964, 0x16bc10c70974, 0x17bc10c70984, 0x189810c80994, 0x195b10000004, 0x195c10000004,
  0x1a64123720c909a5, 0x1a64123720ca09a5, 0x19a10000004, 0x1b210000004, 0x1b210000004,
  0x19a10000004, 0x19910000004, 0x1b910000004, 0x19d10000004, 0x1b310000004, 0x1a510000004,
  0x1a110000004, 0x19b10000004, 0x1ba10000004, 0x19e10000004, 0x1b410000004, 0x1ad10000004,
  0x1af10000004, 0x1a210000004, 0x1a710000004, 0x1a610000004, 0x19f10000004, 0x1b510000004,
  0x1ae10000004, 0x1b010000004, 0x1ac10000004, 0x1a310000004, 0x1a810000004, 0x1a810000004,
  0x1a010000004, 0x1b610000004, 0x1b110000004, 0x1a410000004, 0x1a910000004, 0x1aa10000004,
  0x1ab10000004, 0x1a64123720cb09b5, 0x1064123720cb09c5, 0x1b98053a20cc09d5, 0x1cbb10cd09e5,
  0x1cbc10cd09e5, 0x1dbc10cd09f5, 0x1ebc10cd0a05, 0x1fbc10cd0a15, 0x20bc10cd0a25, 0x219810ce0a35,
  0x1b9810000005, 0x1b5b10000005, 0x1b9a10000005, 0x1bb210000005, 0x1bb210000005, 0x1b9a10000005,
  0x1b9910000005, 0x1bb910000005, 0x1b5c10000005, 0x1b9d10000005, 0x1bb310000005, 0x1ba510000005,
  0x1ba110000005, 0x1b9b10000005, 0x1bba10000005, 0x1b9e10000005, 0x1bb410000005, 0x1bad10000005,
  0x1baf10000005, 0x1ba210000005, 0x1ba710000005, 0x1ba610000005, 0x1b9f10000005, 0x1bb510000005,
  0x1bae10000005, 0x1bb010000005, 0x1bac10000005, 0x1ba310000005, 0x1ba810000005, 0x1ba810000005,
  0x1ba010000005, 0x1bb610000005, 0x1bb110000005, 0x1ba410000005, 0x1ba910000005, 0x1baa10000005,
  0x1bab10000005, 0x1bbf10000005, 0x1bbe10000005, 0x1bc010000005, 0x2298053a20cf0a46,
  0x23cb10d00a56, 0x24bb10d00a66, 0x24bc10d00a66, 0x25bc10d00a76, 0x26bc10d00a86, 0x27bc10d00a96,
  0x28bc10d00aa6, 0x299810d10ab6, 0x2a4a10d20ac4, 0x2b5910d30ad2, 0x2b5910d40ae2, 0x229810000006,
  0x225b10000006, 0x229a10000006, 0x22b210000006, 0x22b210000006, 0x229a10000006, 0x229910000006,
  0x22b910000006, 0x225c10000006, 0x229d10000006, 0x22b310000006, 0x22a510000006, 0x22a110000006,
  0x229b10000006, 0x22ba10000006, 0x229e10000006, 0x22b410000006, 0x22ad10000006, 0x22af10000006,
  0x22a210000006, 0x22a710000006, 0x22a610000006, 0x229f10000006, 0x22b510000006, 0x22ae10000006,
  0x22b010000006, 0x22ac10000006, 0x22a310000006, 0x22a810000006, 0x22a810000006, 0x22a010000006,
  0x22b610000006, 0x22b110000006, 0x22a410000006, 0x22a910000006, 0x22aa10000006, 0x22ab10000006,
  0x22bf10000006, 0x22be10000006, 0x22c010000006, 0x2cbb10d50af7, 0x2cbc10d50af7, 0x60f10d60b02,
  0x61010d70b12, 0x2d9810d80b27, 0x63710d90b38, 0xa5b10000007, 0xa9a10000007, 0xab210000007,
  0xab210000007, 0xa9a10000007, 0xa9910000007, 0xab910000007, 0xa5c10000007, 0xa9d10000007,
  0xab310000007, 0xaa510000007, 0xaa110000007, 0xa9b10000007, 0xaba10000007, 0xa9e10000007,
  0xab410000007, 0xaad10000007, 0xaaf10000007, 0xaa210000007, 0xaa710000007, 0xaa610000007,
  0xa9f10000007, 0xab510000007, 0xaae10000007, 0xab010000007, 0xaac10000007, 0xaa310000007,
  0xaa810000007, 0xaa810000007, 0xaa010000007, 0xab610000007, 0xab110000007, 0xaa410000007,
  0xaa910000007, 0xaaa10000007, 0xaab10000007, 0x2e98053a20da0b48, 0x2f5910db0b50, 0x2f5910dc0b60,
  0x30cb10dd0b78, 0x31bb10dd0b88, 0x31bc10dd0b88, 0x32bc10d50b97, 0x33bc10d50ba7, 0x34bc10d50bb7,
  0x35bc10d50bc7, 0x36bc10dd0bd8, 0x37bc10dd0be8, 0x38bc10dd0bf8, 0x39bc10dd0c08, 0x67610dd0b78,
  0x67710dd0b78, 0x3a5910de0c10, 0x3b3a10df0c23, 0x21b10e00c32, 0x66510dd0b78, 0x21c10e10c32,
  0x21f10e20c32, 0x3d663c3720e30c43, 0x3e9810e40c58, 0x3f98053a20e50c63, 0xe60c70, 0xe1b10e70c82,
  0xe1c10e80c82, 0xe1f10e90c82, 0x2e9810000008, 0x2e9a10000008, 0x2eb210000008, 0x2eb210000008,
  0x2e9a10000008, 0x2e9910000008, 0x2eb910000008, 0x2e9d10000008, 0x2eb310000008, 0x2ea510000008,
  0x2ea110000008, 0x2e9b10000008, 0x2eba10000008, 0x2e9e10000008, 0x2eb410000008, 0x2ead10000008,
  0x2eaf10000008, 0x2ea210000008, 0x2ea710000008, 0x2ea610000008, 0x2e9f10000008, 0x2eb510000008,
  0x2eae10000008, 0x2eb010000008, 0x2eac10000008, 0x2ea310000008, 0x2ea810000008, 0x2ea810000008,
  0x2ea010000008, 0x2eb610000008, 0x2eb110000008, 0x2ea410000008, 0x2ea910000008, 0x2eaa10000008,
  0x2eab10000008, 0x2ebf10000008, 0x2ebe10000008, 0x2ec010000008, 0x40cb10d50c97, 0x415910ea0ca2,
  0x42bb10eb0cb3, 0x415910ec0cc2, 0x42bc10eb0cb3, 0x2e5b10000008, 0x2e5c10000008, 0x43bc10eb0cd3,
  0x44bc10eb0ce3, 0x45bc10eb0cf3, 0x46bc10eb0d03, 0xed0d10, 0xee0d20, 0xef0d37, 0xf00d40,
  0x2a5210f10ad2, 0x473710f20d57, 0xf00d60, 0x483710f20d77, 0x4998053a20100137, 0x4a9810f30d83,
  0x4c984b3a20100137, 0xf40d97, 0xf00da0, 0xf00db0, 0xf50dc7, 0xf00dd0, 0xf00de0, 0xf60df7,
  0xf70e07, 0xf80e17, 0xf90e20, 0xfa0e30, 0xfb0e40, 0x4db710d50c97, 0xfc0e50, 0xfd0e60,
  0x1a3710f20e77, 0xfe0e50, 0xfd0e80, 0x3bd610d50e97, 0xf00ea0, 0x4ebc10d50eb7, 0x4fbc10d50ec7,
  0x50bc10d50ed7, 0x51bc10d50ee7, 0x103710ff0ef7, 0x3f9810000003, 0x5298053a201009d7,
  0x3f5b10000003, 0x3f9a10000003, 0x3fb210000003, 0x3fb210000003, 0x3f9a10000003, 0x3f9910000003,
  0x3fb910000003, 0x3f5c10000003, 0x3f9d10000003, 0x3fb310000003, 0x3fa510000003, 0x3fa110000003,
  0x3f9b10000003, 0x3fba10000003, 0x3f9e10000003, 0x3fb410000003, 0x3fad10000003, 0x3faf10000003,
  0x3fa210000003, 0x3fa710000003, 0x3fa610000003, 0x3f9f10000003, 0x3fb510000003, 0x3fae10000003,
  0x3fb010000003, 0x3fac10000003, 0x3fa310000003, 0x3fa810000003, 0x3fa810000003, 0x3fa010000003,
  0x3fb610000003, 0x3fb110000003, 0x3fa410000003, 0x3fa910000003, 0x3faa10000003, 0x3fab10000003,
  0x3fbf10000003, 0x3fbe10000003, 0x3fc010000003, 0x1000f00, 0xfd0f10, 0xfd0f20, 0x53bc10d50f37,
  0x54bc10d50f47, 0x55bc10d50f57, 0x56bc10d50f67, 0x1010f70, 0xfd0f80, 0xfd0f90, 0x1020fa0,
  0x1030fb0, 0xd50fc7, 0xd50fd7, 0x1040e50, 0x1050fe0, 0x1060ff7, 0x1071000, 0xd51017, 0x1071020,
  0xd51037, 0xfd1040, 0x486510d50c97, 0x3bcb10d51057, 0x1021060, 0xd51077, 0xd51087, 0x1071090,
  0xd510a7, 0x10710b0, 0xd510c7, 0x57cb10d510d7, 0x10810e0, 0xd510f7, 0xd51107, 0x1071110, 0xd51127,
  0x1071130, 0xd51147, 0x1091150, 0xd51167, 0xd51177, 0xd51187, 0xd51197, 0x10a11a0, 0xd511b7,
  0xd511c7, 0xd511d7, 0xd511e7, 0x10b11f0, 0xd51207, 0xd51217, 0xd51227, 0xd51237, 0x1021240,
  0xd51257, 0xd51267, 0x10c1270, 0x10d1280, 0x10e1290, 0xd512a7, 0x108110d510d7, 0xd512b7,
  0x10f12c0, 0x11012d0, 0x108210d510d7, 0x11012e0, 0x11112f0, 0x1111300, 0x3d6710d50c97, 0x1071280,
  0xd51317, 0xd51327, 0x1111330, 0x106510d510d7, 0xd51347, 0xd51357, 0x1121360, 0x1101370,
  0x1101380, 0xd51397, 0xd513a7, 0xd513b7, 0xd513c7, 0x11313d0, 0x11013e0, 0x11013f0, 0xd51407,
  0xd51417, 0xd51427, 0xd51437, 0x1141440, 0x1101450, 0x1101460, 0xd51477, 0xd51487, 0xd51497,
  0xd514a7, 0x11514b0, 0x11014c0, 0x11014d0, 0xd514e7, 0xd514f7, 0xd51507, 0xd51517, 0x1161520,
  0x1101530, 0x1101540, 0xd51557, 0xd51567, 0x1171280, 0x1181280, 0x1191570, 0x11a1580, 0x11b1570,
  0x11c1280, 0x11d1570, 0x11e1280, 0x11f1590, 0x1201580, 0x1211280, 0x1221280, 0x1231280, 0x1241570,
  0x12515a0, 0x1261570, 0x1271280, 0x1281280, 0x12915a0, 0x12a15a0, 0x12b1570, 0x12c1280, 0xd515b7,
  0x1101280, 0x12d15c0, 0x12e15d0, 0x12f1280, 0x1301280, 0x1311280, 0x13215e0, 0x13315f0, 0x13415a0,
  0x13515a0, 0x13615a0, 0x1371600, 0x1381610, 0x1391620, 0x13a1620, 0x13b1620, 0x13c1630, 0x13d1640,
  0x13e1650, 0x13f1650, 0x1401650, 0x1411660, 0x1421670, 0x1431680, 0x1441680, 0x1451680, 0x1461620,
  0x14715d0, 0x1481280, 0x1491280, 0x14a1280, 0x14b1280, 0x14c1680, 0x14d15f0, 0x14e15a0, 0x14f1280,
  0x15015a0, 0x1511610, 0x1521620, 0x1531620, 0x1541640, 0x1551650, 0x1561650, 0x1571670, 0x1581680,
  0x1591680, 0x15a1280, 0x15b1280, 0x1111280, 0x15c1280, 0x15d1280, 0x15e1280, 0x15f1280, 0x1601280,
  0x10f1280, 0x1611280, 0x1621280, 0x1631280, 0x1641280, 0x1651280, 0x1661280, 0x582710000002,
  0x582810000002, 0x582910000002, 0x582a10000002, 0x59c411671692, 0x59c410000002, 0x5a2710000000,
  0x5a2810000000, 0x5a2910000000, 0x5a2a10000000, 0x5b2710000002, 0x5b2810000002, 0x5b2910000002,
  0x5b2a10000002, 0x5c3a116816a4, 0x5d3a116816a4, 0x1238116916b0, 0x23cb116916c0, 0x5c3b116a16d2,
  0x5d3b116a16d2, 0x5ec5116b16e0, 0x5d3b10000002, 0x5d4410000002, 0x5d4510000002, 0x5d5710000002,
  0x5d3c10000002, 0x5d3c10000002, 0x5d3910000002, 0x5d4310000002, 0x5d4610000002, 0x5d4010000002,
  0x5d4e10000002, 0x5d5810000002, 0x5d5810000002, 0x5dbd10000002, 0x5d4110000002, 0x5d4710000002,
  0x5d5a10000002, 0x5d5810000002, 0x5d4f10000002, 0x5d3d10000002, 0x5d4810000002, 0x5d5010000002,
  0x5d5610000002, 0x5d3e10000002, 0x5d4910000002, 0x5d5110000002, 0x5d3f10000002, 0x16f0, 0x1700,
  0x1710, 0x5ec510000000, 0x5fce116c1720, 0x1730, 0x1740, 0x602210000000, 0x5fce10000000,
  0x602310000000, 0x602410000000, 0xd3a116d09d3, 0x2a4b116e1754, 0xd3b116f1760, 0x2a4a11701772,
  0x613a11711784, 0x2a4b11721772, 0x2f3a116d09d3, 0x141793, 0x1417a3, 0xd3b10000000, 0xd4410000000,
  0xd4510000000, 0xd5710000000, 0xd3c10000000, 0xd3c10000000, 0xd3910000000, 0xd4310000000,
  0xd4610000000, 0xd4010000000, 0xd4e10000000, 0xd5810000000, 0xd5810000000, 0xd4110000000,
  0xd4710000000, 0xd5a10000000, 0xd5810000000, 0xd4f10000000, 0xd3d10000000, 0xd4810000000,
  0xd5010000000, 0xd5610000000, 0xd3e10000000, 0x1417b3, 0xd4910000000, 0xd5110000000,
  0xd3f10000000, 0x2f3b116f1760, 0x623b117317c0, 0x17417d0, 0x633510000002, 0x2a4a117500e2,
  0x633010000002, 0x633610000002, 0x2a4b117600e2, 0x2a4b117700e2, 0x17817e0, 0x633110000002,
  0x2a4c117900e2, 0x17817f0, 0x638117a1802, 0x30cb117a1812, 0x413a117b1824, 0x643a117b1824,
  0x623b117c1830, 0x17d1840, 0x625a117e1850, 0x1781860, 0x1781870, 0x17f1880, 0x1781890, 0x17818a0,
  0x66f100018b2, 0x671100018c2, 0xf5d118018d2, 0x615100018e2, 0xf5e118118f2, 0x67810001902,
  0x61610001912, 0x6d111811922, 0x67910001932, 0x1781940, 0x413b11821952, 0x643b11821952,
  0x66e10000002, 0x66110000002, 0x66310000002, 0x60c10000002, 0x61410000002, 0x63210000002,
  0x67010000002, 0x67210000002, 0x67310000002, 0x67510000002, 0x67b10000002, 0x1831960, 0x1841970,
  0x66810000002, 0x66910000002, 0x60d10000002, 0x61910000002, 0x653a11851983, 0x63310000002,
  0x2a5411861992, 0x67c10000002, 0x68310000002, 0x18719a0, 0x18819b0, 0x18919c0, 0x69410000002,
  0x18a19d0, 0x66c10000002, 0x66a10000002, 0x66b10000002, 0x6654118b19e0, 0x60e10000002,
  0x61110000002, 0x61a10000002, 0x61610000002, 0x21c118c19f2, 0x63410000002, 0x6d110000002,
  0x2a55118d1992, 0x68410000002, 0xfd211871a00, 0x18e1a10, 0x68c10000002, 0x18f1a20, 0x68410000002,
  0x1871a30, 0x69510000002, 0xfd5118a1a40, 0x61210000002, 0x61210000002, 0x61710000002,
  0x61710000002, 0x21d119019f2, 0x220119119f2, 0x61d0118d1a52, 0x67910000002, 0x68510000002,
  0x1871a60, 0x1921a70, 0x68d10000002, 0xfd3118f1a80, 0x68510000002, 0x61310000002, 0x61810000002,
  0x68610000002, 0x68610000002, 0x1871a90, 0x67a10000002, 0x68710000002, 0x643b10000002,
  0x644410000002, 0x644510000002, 0x645710000002, 0x643c10000002, 0x643c10000002, 0x673811931aa0,
  0x643910000002, 0x644310000002, 0x644610000002, 0x644010000002, 0x644e10000002, 0x645810000002,
  0x645810000002, 0x64bd10000002, 0x40cb11931ab0, 0x644110000002, 0x644710000002, 0x645a10000002,
  0x645810000002, 0x644f10000002, 0x643d10000002, 0x644810000002, 0x645010000002, 0x645610000002,
  0x643e10000002, 0x644910000002, 0x645110000002, 0x643f10000002, 0x653a11941ac3, 0x684010001ad0,
  0x53b11951ae0, 0x1961af0, 0x69c910001b02, 0x1971b10, 0x1981b20, 0x1991b32, 0x19a1b42,
  0x69ca11971b50, 0x19b1b62, 0x19c1b72, 0x2acd119b1b82, 0x61d010000002, 0x2acf119c1b92,
  0xe1c119d1ba2, 0xe1d119e1ba2, 0xe20119f1ba2, 0x1a01bb2, 0x1a11bc2, 0x151bd2, 0x19b1be2, 0x19c1bf2,
  0x53b11a21c00, 0x1a31c12, 0x1a41c22, 0x19b1c32, 0x19c1c42, 0x53b11a51c50, 0x53b11a61c60,
  0x53b11a71c70, 0x1a81c80, 0x1a91c90, 0x53b11aa1ca0, 0x1ab1cb0, 0x1ac1cc0, 0x1ad1cd0, 0x1ae1ce0,
  0x1af1cf0, 0x55a11b01ba0, 0x1b11d00, 0x69c311ae1d10, 0x69c611af1d20, 0x21c10000002,
  0x2a4b10000002, 0x2a4b10000002, 0x1b21d30, 0x21d10000002, 0x21d10000002, 0x22010000002,
  0x2a4c10000002, 0x2a4c10000002, 0x2a4c10000002, 0x2acd10000002, 0x2a5310000002, 0x2acf10000002,
  0x6ad411b31d40, 0x20b10000002, 0x21e10000002, 0x22110000002, 0x2a4d10000002, 0x1b41d30,
  0x6654118b1d50, 0x665511b51d50, 0x6bd011b51d60, 0x25b10000002, 0x25c10000002, 0x1b61d70,
  0x1b71d80, 0x53b11b81d90, 0x55a11b91da0, 0x1ba1db0, 0x1bb1dc9, 0x53b11bc1dd0, 0xf1de9,
  0x55a11bd1df0, 0x1be1e00, 0x1bf1e19, 0x53b11c01e20, 0xf1e39, 0x55a11c11e40, 0x1c21e50, 0x1c31e69,
  0x53b11c41e70, 0xf1e89, 0x55a11c51e90, 0x1c61ea0, 0x1c71eb9, 0xf1ec9, 0x1c81ed0, 0x1c91ee0,
  0x1ef0, 0xf5d10000000, 0x1f02, 0x1f12, 0x1ca1f20, 0x1cb1f30, 0x1cc1f40, 0x4db710000000, 0x1b11f50,
  0x1cd1f60, 0x1ce1f70, 0x1cf1f80, 0x1d01f90, 0xf5f10000000, 0x1d11fa0, 0x1d21fb0, 0x1d31fc0,
  0x1b31fd0, 0x1d41fe0, 0x3bc811cf1ff0, 0x1d52000, 0x1d62010, 0xf6010000000, 0xf8b10000000,
  0x1d72020, 0x66cc11d22030, 0x6cd710002040, 0x6cd711d32050, 0x6ad410000000, 0x3bd611d42060,
  0x1d52070, 0x66c711d62080, 0xf8910000000, 0x1b32090, 0xf9710000000, 0xf9210000000, 0xf9310000000,
  0xe0910000002, 0xe1c10000002, 0xe0a10000002, 0xe1d10000002, 0xe1d10000002, 0xe2010000002,
  0x6bd010000000, 0xe0b10000002, 0xe1e10000002, 0xe2110000002, 0x103811d820a0, 0x1d920b0, 0x1da20c0,
  0x1db20d0, 0x1b720e0, 0x1dc20f0, 0x1dd2100, 0x3bcb11d12110, 0x1cf2120, 0x1d12130, 0x1d22140,
  0x1d32150, 0x1b32160, 0x1d42170, 0x1de2180, 0x1df2190, 0x1e021a0, 0x1ba21b0, 0x1e121c0, 0x1e221d0,
  0x1cf21e0, 0x1d121f0, 0x1d22200, 0x1d32210, 0x1b32220, 0x1d42230, 0x1e32240, 0x1be2250, 0x1e42260,
  0x1e52270, 0x1d12280, 0x1d32290, 0x1b322a0, 0x1d422b0, 0x1e622c0, 0x1c222d0, 0x1e722e0, 0x1e822f0,
  0x1d12300, 0x1d32310, 0x1b32320, 0x1d42330, 0x1e92340, 0x1c62350, 0x1ea2360, 0x1eb2370, 0x1d12380,
  0x1d32390, 0x1b323a0, 0x1d423b0, 0x1ec23c0, 0x57cb11d823d0, 0x1ed23e0, 0x23f0, 0x1aa1ca0,
  0x1ee2400, 0x6d4010002410, 0x1ef2400, 0x1f01ba0, 0x2420, 0x1f12430, 0x3b2b10000000, 0x1f22440,
  0x1f32450, 0x16a16d0, 0x2460, 0x69c310000000, 0x69c610000000, 0x3b2e10000000, 0x3b2c10000000,
  0x69ca10000000, 0x2470, 0x3b9c10000000, 0x3b2f10000000, 0x3b2d10000000, 0x3bc810000000,
  0x662510000000, 0x2480, 0x2490, 0x66cc10000000, 0x6cd710000000, 0x6cb810000000, 0x3bd610000000,
  0x662610000000, 0x66c710000000, 0x1d52440, 0x24a0, 0x6e6310000000, 0x6e6810000000, 0x6e6910000000,
  0x6e6a10000000, 0x6e6b10000000, 0x1f424b0, 0x17c1830, 0x1f52400, 0x24c0, 0x1f624d0, 0x1f724e0,
  0x1f824f0, 0x1b81d90, 0x1f924e0, 0x2500, 0x1fa2510, 0x1bc1dd0, 0x1fb24e0, 0x2520, 0x1fc2530,
  0x1c01e20, 0x1fd2450, 0x2540, 0x1fe2550, 0x1c41e70, 0x1ff2450, 0x2560, 0x2002570, 0x2012400,
  0x2022400, 0x2032400, 0x2042400, 0x2052400, 0x2580, 0x2590, 0x6d40100025a0, 0x25b0,
  0x6d40100025c0, 0x25d0, 0x6d40100025e0, 0x25f0, 0x6d4010002600, 0x2610, 0x2620, 0x2630, 0x2640,
  0x2650, 0x2660, 0x2670, 0x2680, 0x2690, 0x26a0, 0x26b0, 0x26c0, 0x26d0, 0x26e0, 0x26f0, 0x2700,
  0x2710, 0x2720, 0x2730, 0x2740, 0x104210000000, 0x2750, 0x107e10000000, 0x2760, 0x2770, 0x2780,
  0x2790, 0x27a0, 0x107f10000000, 0x107f10000000, 0x27b0, 0x108010000000, 0x108e10000000, 0x27c0,
  0x27d0, 0x108f10000000, 0x108f10000000, 0x27e0, 0x109010000000, 0x27f0, 0x2800, 0x2810, 0x2820,
  0x2830, 0x2840, 0x2850, 0x2860, 0x2870, 0x2880, 0x2890, 0x28a0, 0x28b0, 0x28c0, 0x28d0, 0x28e0,
  0x28f0, 0x2900, 0x2910, 0x2920, 0x2930, 0x2940, 0x2950, 0x2960, 0x2970, 0x2980, 0x2990, 0x29a0,
  0x29b0, 0x29c0, 0x29d0, 0x29e0, 0x29f0, 0x2a00, 0x2a10, 0x2a20, 0x2a30, 0x2a40, 0x2a50, 0x2a60,
  0x2a70, 0x2a80, 0x2a90, 0x2aaa, 0x2aba, 0x2aca, 0x2ada, 0x2ae0, 0x2af0, 0x2b00, 0x2b10, 0x2b20]

end ImportGroups.Source.Automaton
