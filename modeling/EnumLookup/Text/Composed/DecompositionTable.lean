/-!
Full compatibility decompositions (Unicode 14) of the characters that identifiers may
hold, Hangul syllables apart, whose decomposition is computed.
-/
namespace EnumLookup.Text.Composed

/-- Runs that decompose into one code point each, three numbers a run: the distance from
the last member of the run before, the number of members after the first, and what the
first decomposes into; later members decompose into the following code points. -/
def singleLines : List String := [
  "aa 0 61 b 0 3bc 5 0 6f c5 0 73 131 0 68 1 0 266 1 0 6a 1 0 72 1 0 279 1 0 27b 1 0 281 1",
  "0 77 1 0 79 28 0 263 1 0 6c 1 0 73 1 0 78 1 0 295 5c 1 300 2 0 313 31 0 2b9 13 0 b7 49 0",
  "3b2 1 0 3b8 1 0 3a5 3 0 3c6 1 0 3c0 1a 0 3ba 1 1 3c1 2 0 398 1 0 3b5 4 0 3a3 d03 0 10dc",
  "c30 0 41 1 0 c6 1 0 42 2 1 44 1 0 18e 1 7 47 2 0 4f 1 0 222 1 0 50 1 0 52 1 1 54 1 0 57",
  "1 0 61 1 1 250 1 0 1d02 1 0 62 1 1 64 1 0 259 1 1 25b 1 0 67 2 0 6b 1 0 6d 1 0 14b 1 0",
  "6f 1 0 254 1 1 1d16 1 0 70 1 1 74 1 0 1d1d 1 0 26f 1 0 76 1 0 1d25 1 2 3b2 1 1 3c6 1 0",
  "69 1 0 72 1 1 75 1 1 3b2 1 0 3c1 1 1 3c6 e 0 43d 23 0 252 1 0 63 1 0 255 1 0 f0 1 0 25c",
  "1 0 66 1 0 25f 1 0 261 1 0 265 1 2 268 1 0 1d7b 1 0 29d 1 0 26d 1 0 1d85 1 0 29f 1 0 271",
  "1 0 270 1 3 272 1 0 278 1 1 282 1 0 1ab 1 1 289 1 0 1d1c 1 1 28b 1 0 7a 1 2 290 1 0 3b8",
  "1ff 0 3b9 b3 0 69 e 0 6e 11 0 61 1 0 65 1 0 6f 1 0 78 1 0 259 1 0 68 1 3 6b 1 0 70 1 1",
  "73 66 0 43 5 0 190 3 0 67 1 0 48 1 0 48 1 0 48 1 0 68 1 0 127 1 0 49 1 0 49 1 0 4c 1 0",
  "6c 2 0 4e 4 2 50 1 0 52 1 0 52 7 0 5a 2 0 3a9 2 0 5a 2 0 4b 2 1 42 2 0 65 1 1 45 2 0 4d",
  "1 0 6f 1 3 5d0 1 0 69 3 0 3c0 1 0 3b3 1 0 393 1 0 3a0 6 0 44 1 1 64 1 1 69 17 0 49 4 0",
  "56 5 0 58 3 0 4c 1 1 43 1 0 4d 1 0 69 4 0 76 5 0 78 3 0 6c 1 1 63 1 0 6d afd 0 6a 1 0 56",
  "f2 0 2d61 2c9 0 5341 1 1 5344 f7 1 1100 1 0 11aa 1 0 1102 1 1 11ac 1 2 1103 1 5 11b0 1 0",
  "111a 1 2 1106 1 0 1121 1 9 1109 1 14 1161 1 0 1160 1 1 1114 1 1 11c7 1 0 11cc 1 0 11ce 1",
  "0 11d3 1 0 11d7 1 0 11d9 1 0 111c 1 0 11dd 1 0 11df 1 1 111d 1 0 1120 1 1 1122 1 0 1127",
  "1 0 1129 1 4 112b 1 0 1132 1 0 1136 1 0 1140 1 0 1147 1 0 114c 1 1 11f1 1 2 1157 1 1",
  "1184 1 0 1188 1 1 1191 1 0 1194 1 0 119e 1 0 11a1 750e 0 44a 1 0 44c d3 0 a76f 82 0 43 1",
  "0 46 1 0 51 4 0 126 1 0 153 363 0 a727 1 0 ab37 1 0 26b 1 0 ab52 a 0 28d 4d97 0 8c48 1 0",
  "66f4 1 0 8eca 1 0 8cc8 1 0 6ed1 1 0 4e32 1 0 53e5 1 0 9f9c 1 0 9f9c 1 0 5951 1 0 91d1 1",
  "0 5587 1 0 5948 1 0 61f6 1 0 7669 1 0 7f85 1 0 863f 1 0 87ba 1 0 88f8 1 0 908f 1 0 6a02",
  "1 0 6d1b 1 0 70d9 1 0 73de 1 0 843d 1 0 916a 1 0 99f1 1 0 4e82 1 0 5375 1 0 6b04 1 0",
  "721b 1 0 862d 1 0 9e1e 1 0 5d50 1 0 6feb 1 0 85cd 1 0 8964 1 0 62c9 1 0 81d8 1 0 881f 1",
  "0 5eca 1 0 6717 1 0 6d6a 1 0 72fc 1 0 90ce 1 0 4f86 1 0 51b7 1 0 52de 1 0 64c4 1 0 6ad3",
  "1 0 7210 1 0 76e7 1 0 8001 1 0 8606 1 0 865c 1 0 8def 1 0 9732 1 0 9b6f 1 0 9dfa 1 0",
  "788c 1 0 797f 1 0 7da0 1 0 83c9 1 0 9304 1 0 9e7f 1 0 8ad6 1 0 58df 1 0 5f04 1 0 7c60 1",
  "0 807e 1 0 7262 1 0 78ca 1 0 8cc2 1 0 96f7 1 0 58d8 1 0 5c62 1 0 6a13 1 0 6dda 1 0 6f0f",
  "1 0 7d2f 1 0 7e37 1 0 964b 1 0 52d2 1 0 808b 1 0 51dc 1 0 51cc 1 0 7a1c 1 0 7dbe 1 0",
  "83f1 1 0 9675 1 0 8b80 1 0 62cf 1 0 6a02 1 0 8afe 1 0 4e39 1 0 5be7 1 0 6012 1 0 7387 1",
  "0 7570 1 0 5317 1 0 78fb 1 0 4fbf 1 0 5fa9 1 0 4e0d 1 0 6ccc 1 0 6578 1 0 7d22 1 0 53c3",
  "1 0 585e 1 0 7701 1 0 8449 1 0 8aaa 1 0 6bba 1 0 8fb0 1 0 6c88 1 0 62fe 1 0 82e5 1 0",
  "63a0 1 0 7565 1 0 4eae 1 0 5169 1 0 51c9 1 0 6881 1 0 7ce7 1 0 826f 1 0 8ad2 1 0 91cf 1",
  "0 52f5 1 0 5442 1 0 5973 1 0 5eec 1 0 65c5 1 0 6ffe 1 0 792a 1 0 95ad 1 0 9a6a 1 0 9e97",
  "1 0 9ece 1 0 529b 1 0 66c6 1 0 6b77 1 0 8f62 1 0 5e74 1 0 6190 1 0 6200 1 0 649a 1 0",
  "6f23 1 0 7149 1 0 7489 1 0 79ca 1 0 7df4 1 0 806f 1 0 8f26 1 0 84ee 1 0 9023 1 0 934a 1",
  "0 5217 1 0 52a3 1 0 54bd 1 0 70c8 1 0 88c2 1 0 8aaa 1 0 5ec9 1 0 5ff5 1 0 637b 1 0 6bae",
  "1 0 7c3e 1 0 7375 1 0 4ee4 1 0 56f9 1 0 5be7 1 0 5dba 1 0 601c 1 0 73b2 1 0 7469 1 0",
  "7f9a 1 0 8046 1 0 9234 1 0 96f6 1 0 9748 1 0 9818 1 0 4f8b 1 0 79ae 1 0 91b4 1 0 96b8 1",
  "0 60e1 1 0 4e86 1 0 50da 1 0 5bee 1 0 5c3f 1 0 6599 1 0 6a02 1 0 71ce 1 0 7642 1 0 84fc",
  "1 0 907c 1 0 9f8d 1 0 6688 1 0 962e 1 0 5289 1 0 677b 1 0 67f3 1 0 6d41 1 0 6e9c 1 0",
  "7409 1 0 7559 1 0 786b 1 0 7d10 1 0 985e 1 0 516d 1 0 622e 1 0 9678 1 0 502b 1 0 5d19 1",
  "0 6dea 1 0 8f2a 1 0 5f8b 1 0 6144 1 0 6817 1 0 7387 1 0 9686 1 0 5229 1 0 540f 1 0 5c65",
  "1 0 6613 1 0 674e 1 0 68a8 1 0 6ce5 1 0 7406 1 0 75e2 1 0 7f79 1 0 88cf 1 0 88e1 1 0",
  "91cc 1 0 96e2 1 0 533f 1 0 6eba 1 0 541d 1 0 71d0 1 0 7498 1 0 85fa 1 0 96a3 1 0 9c57 1",
  "0 9e9f 1 0 6797 1 0 6dcb 1 0 81e8 1 0 7acb 1 0 7b20 1 0 7c92 1 0 72c0 1 0 7099 1 0 8b58",
  "1 0 4ec0 1 0 8336 1 0 523a 1 0 5207 1 0 5ea6 1 0 62d3 1 0 7cd6 1 0 5b85 1 0 6d1e 1 0",
  "66b4 1 0 8f3b 1 0 884c 1 0 964d 1 0 898b 1 0 5ed3 1 0 5140 1 0 55c0 3 0 585a 2 0 6674 3",
  "0 51de 1 0 732a 1 0 76ca 1 0 793c 1 0 795e 1 0 7965 1 0 798f 1 0 9756 1 0 7cbe 1 0 7fbd",
  "2 0 8612 2 0 8af8 3 0 9038 1 0 90fd 4 0 98ef 1 0 98fc 1 0 9928 1 0 9db4 1 0 90de 1 0",
  "96b7 1 0 4fae 1 0 50e7 1 0 514d 1 0 52c9 1 0 52e4 1 0 5351 1 0 559d 1 0 5606 1 0 5668 1",
  "0 5840 1 0 58a8 1 0 5c64 1 0 5c6e 1 0 6094 1 0 6168 1 0 618e 1 0 61f2 1 0 654f 1 0 65e2",
  "1 0 6691 1 0 6885 1 0 6d77 1 0 6e1a 1 0 6f22 1 0 716e 1 0 722b 1 0 7422 1 0 7891 1 0",
  "793e 1 0 7949 1 0 7948 1 0 7950 1 0 7956 1 0 795d 1 1 798d 1 0 7a40 1 0 7a81 1 0 7bc0 1",
  "0 7df4 1 0 7e09 1 0 7e41 1 0 7f72 1 0 8005 1 0 81ed 1 0 8279 1 0 8279 1 0 8457 1 0 8910",
  "1 0 8996 1 0 8b01 1 0 8b39 1 0 8cd3 1 0 8d08 1 0 8fb6 1 0 9038 1 0 96e3 1 0 97ff 1 0",
  "983b 1 0 6075 1 0 242ee 1 0 8218 3 0 4e26 1 0 51b5 1 0 5168 1 0 4f80 1 0 5145 1 0 5180 1",
  "0 52c7 1 0 52fa 1 0 559d 1 0 5555 1 0 5599 1 0 55e2 1 0 585a 1 0 58b3 1 0 5944 1 0 5954",
  "1 0 5a62 1 0 5b28 1 0 5ed2 1 0 5ed9 1 0 5f69 1 0 5fad 1 0 60d8 1 0 614e 1 0 6108 1 0",
  "618e 1 0 6160 1 0 61f2 1 0 6234 1 0 63c4 1 0 641c 1 0 6452 1 0 6556 1 0 6674 1 0 6717 1",
  "0 671b 1 0 6756 1 0 6b79 1 0 6bba 1 0 6d41 1 0 6edb 1 0 6ecb 1 0 6f22 1 0 701e 1 0 716e",
  "1 0 77a7 1 0 7235 1 0 72af 1 0 732a 1 0 7471 1 0 7506 1 0 753b 1 0 761d 1 0 761f 1 0",
  "76ca 1 0 76db 1 0 76f4 1 0 774a 1 0 7740 1 0 78cc 1 0 7ab1 1 0 7bc0 1 0 7c7b 1 0 7d5b 1",
  "0 7df4 1 0 7f3e 1 0 8005 1 0 8352 1 0 83ef 1 0 8779 1 0 8941 1 0 8986 1 0 8996 1 0 8abf",
  "1 0 8af8 1 0 8acb 1 0 8b01 1 0 8afe 1 0 8aed 1 0 8b39 1 0 8b8a 1 0 8d08 1 0 8f38 1 0",
  "9072 1 0 9199 1 0 9276 1 0 967c 1 0 96e3 1 0 9756 1 0 97db 1 0 97ff 1 0 980b 1 0 983b 1",
  "0 9b12 1 0 9f9c 1 0 2284a 1 0 22844 1 0 233d5 1 0 3b9d 1 0 4018 1 0 4039 1 0 25249 1 0",
  "25cd0 1 0 27ed3 1 0 9f43 1 0 9f8e 47 0 5e2 1 0 5d0 1 1 5d3 1 2 5db 1 0 5e8 1 0 5ea 28 0",
  "671 1 0 671 1 0 67b 1 0 67b 1 0 67b 1 0 67b 1 0 67e 1 0 67e 1 0 67e 1 0 67e 1 0 680 1 0",
  "680 1 0 680 1 0 680 1 0 67a 1 0 67a 1 0 67a 1 0 67a 1 0 67f 1 0 67f 1 0 67f 1 0 67f 1 0",
  "679 1 0 679 1 0 679 1 0 679 1 0 6a4 1 0 6a4 1 0 6a4 1 0 6a4 1 0 6a6 1 0 6a6 1 0 6a6 1 0",
  "6a6 1 0 684 1 0 684 1 0 684 1 0 684 1 0 683 1 0 683 1 0 683 1 0 683 1 0 686 1 0 686 1 0",
  "686 1 1 686 1 0 687 1 0 687 1 0 687 1 0 68d 1 0 68d 1 0 68c 1 0 68c 1 0 68e 1 0 68e 1 0",
  "688 1 0 688 1 0 698 1 0 698 1 0 691 1 0 691 1 0 6a9 1 0 6a9 1 0 6a9 1 0 6a9 1 0 6af 1 0",
  "6af 1 0 6af 1 0 6af 1 0 6b3 1 0 6b3 1 0 6b3 1 0 6b3 1 0 6b1 1 0 6b1 1 0 6b1 1 0 6b1 1 0",
  "6ba 1 1 6ba 1 0 6bb 1 0 6bb 1 0 6bb 3 0 6c1 1 0 6c1 1 0 6c1 1 0 6c1 1 0 6be 1 0 6be 1 0",
  "6be 1 0 6be 1 0 6d2 1 0 6d2 24 0 6ad 1 0 6ad 1 0 6ad 1 0 6ad 1 0 6c7 1 0 6c7 1 0 6c6 1 0",
  "6c6 1 0 6c8 1 0 6c8 2 0 6cb 1 0 6cb 1 0 6c5 1 0 6c5 1 0 6c9 1 0 6c9 1 0 6d0 1 0 6d0 1 0",
  "6d0 1 0 6d0 1 0 649 1 0 649 13 0 6cc 1 0 6cc 1 0 6cc 1 0 6cc 234 0 5f 1 0 5f 19 0 5f 1 0",
  "5f 1 0 5f 31 0 621 d 0 627 1 1 627 1 0 628 1 0 628 1 1 628 1 1 629 1 0 62a 1 0 62a 1 1",
  "62a 1 0 62b 1 0 62b 1 1 62b 1 0 62c 1 0 62c 1 1 62c 1 0 62d 1 0 62d 1 1 62d 1 0 62e 1 0",
  "62e 1 1 62e 1 1 62f 1 1 630 1 1 631 1 1 632 1 0 633 1 0 633 1 1 633 1 0 634 1 0 634 1 1",
  "634 1 0 635 1 0 635 1 1 635 1 0 636 1 0 636 1 1 636 1 0 637 1 0 637 1 1 637 1 0 638 1 0",
  "638 1 1 638 1 0 639 1 0 639 1 1 639 1 0 63a 1 0 63a 1 0 63a 1 0 641 1 0 641 1 0 641 1 1",
  "641 1 0 642 1 0 642 1 1 642 1 0 643 1 0 643 1 1 643 1 0 644 1 0 644 1 1 644 1 0 645 1 0",
  "645 1 1 645 1 0 646 1 0 646 1 1 646 1 0 647 1 0 647 1 1 647 1 1 648 1 1 649 1 0 64a 1 0",
  "64a 1 0 64a 1c 9 30 8 19 41 5 0 5f 2 19 61 c 0 30f2 1 0 30a1 1 0 30a3 1 0 30a5 1 0 30a7",
  "1 0 30a9 1 0 30e3 1 0 30e5 1 0 30e7 1 0 30c3 1 0 30fc 1 0 30a2 1 0 30a4 1 0 30a6 1 0",
  "30a8 1 1 30aa 1 0 30ad 1 0 30af 1 0 30b1 1 0 30b3 1 0 30b5 1 0 30b7 1 0 30b9 1 0 30bb 1",
  "0 30bd 1 0 30bf 1 0 30c1 1 0 30c4 1 0 30c6 1 0 30c8 1 5 30ca 1 0 30d2 1 0 30d5 1 0 30d8",
  "1 0 30db 1 4 30de 1 0 30e4 1 0 30e6 1 5 30e8 1 0 30ef 1 0 30f3 1 1 3099 1 0 1160 1 1",
  "1100 1 0 11aa 1 0 1102 1 1 11ac 1 2 1103 1 5 11b0 1 0 111a 1 2 1106 1 0 1121 1 9 1109 4",
  "5 1161 3 5 1167 3 5 116d 3 2 1173 7a5 1 2d0 1 0 e6 1 0 299 1 0 253 2 0 2a3 1 0 ab66 1 0",
  "2a5 1 0 2a4 1 1 256 1 0 1d91 1 0 258 1 0 25e 1 0 2a9 1 0 264 1 0 262 1 0 260 1 0 29b 1 0",
  "127 1 0 29c 1 0 267 1 0 284 1 1 2aa 1 0 26c 1 0 1df04 1 0 a78e 1 0 26e 1 0 1df05 1 0 28e",
  "1 0 1df06 1 0 f8 1 1 276 1 0 71 1 0 27a 1 0 1df08 1 1 27d 1 0 280 1 0 2a8 1 0 2a6 1 0",
  "ab67 1 0 2a7 1 0 288 1 0 2c71 2 0 28f 1 1 2a1 1 0 298 1 2 1c0 1 0 1df0a 1 0 1df1e cc46",
  "19 41 1 19 61 1 19 41 1 6 61 2 11 69 1 19 41 1 19 61 1 0 41 2 1 43 3 0 47 3 1 4a 3 3 4e",
  "2 7 53 1 3 61 2 0 66 2 6 68 2 a 70 1 19 41 1 19 61 1 1 41 2 3 44 3 7 4a 2 6 53 2 19 61 1",
  "1 41 2 3 44 2 4 49 2 0 4f 4 6 53 2 19 61 1 19 41 1 19 61 1 19 41 1 19 61 1 19 41 1 19 61",
  "1 19 41 1 19 61 1 19 41 1 19 61 1 19 41 1 19 61 1 0 131 1 0 237 3 10 391 1 0 398 1 6 3a3",
  "2 18 3b1 2 0 3b5 1 0 3b8 1 0 3ba 1 0 3c6 1 0 3c1 1 0 3c0 1 10 391 1 0 398 1 6 3a3 2 18",
  "3b1 2 0 3b5 1 0 3b8 1 0 3ba 1 0 3c6 1 0 3c1 1 0 3c0 1 10 391 1 0 398 1 6 3a3 2 18 3b1 2",
  "0 3b5 1 0 3b8 1 0 3ba 1 0 3c6 1 0 3c1 1 0 3c0 1 10 391 1 0 398 1 6 3a3 2 18 3b1 2 0 3b5",
  "1 0 3b8 1 0 3ba 1 0 3c6 1 0 3c1 1 0 3c0 1 10 391 1 0 398 1 6 3a3 2 18 3b1 2 0 3b5 1 0",
  "3b8 1 0 3ba 1 0 3c6 1 0 3c1 1 0 3c0 1 1 3dc 3 9 30 1 9 30 1 9 30 1 9 30 1 9 30 1601 1",
  "627 1 0 62c 1 0 62f 2 0 648 1 0 632 1 0 62d 1 0 637 1 0 64a 1 3 643 1 0 633 1 0 639 1 0",
  "641 1 0 635 1 0 642 1 0 631 1 0 634 1 1 62a 1 0 62e 1 0 630 1 0 636 1 0 638 1 0 63a 1 0",
  "66e 1 0 6ba 1 0 6a1 1 0 66f 2 0 628 1 0 62c 2 0 647 3 0 62d 2 0 64a 1 3 643 1 0 633 1 0",
  "639 1 0 641 1 0 635 1 0 642 2 0 634 1 1 62a 1 0 62e 2 0 636 2 0 63a 7 0 62c 5 0 62d 2 0",
  "64a 2 0 644 2 0 646 1 0 633 1 0 639 2 0 635 1 0 642 2 0 634 3 0 62e 2 0 636 2 0 63a 2 0",
  "6ba 2 0 66f 2 0 628 1 0 62c 2 0 647 3 0 62d 1 0 637 1 0 64a 1 0 643 2 1 645 1 0 633 1 0",
  "639 1 0 641 1 0 635 1 0 642 2 0 634 1 1 62a 1 0 62e 2 0 636 1 0 638 1 0 63a 1 0 66e 2 0",
  "6a1 2 1 627 1 0 62c 1 0 62f 1 1 647 1 0 632 1 0 62d 1 0 637 1 0 64a 2 2 644 1 0 633 1 0",
  "639 1 0 641 1 0 635 1 0 642 1 0 631 1 0 634 1 1 62a 1 0 62e 1 0 630 1 0 636 1 0 638 1 0",
  "63a 6 0 628 1 0 62c 1 0 62f 2 0 648 1 0 632 1 0 62d 1 0 637 1 0 64a 2 2 644 1 0 633 1 0",
  "639 1 0 641 1 0 635 1 0 642 1 0 631 1 0 634 1 1 62a 1 0 62e 1 0 630 1 0 636 1 0 638 1 0",
  "63a d35 9 30 fc07 0 4e3d 1 0 4e38 1 0 4e41 1 0 20122 1 0 4f60 1 0 4fae 1 0 4fbb 1 0 5002",
  "1 0 507a 1 0 5099 1 0 50e7 1 0 50cf 1 0 349e 1 0 2063a 1 0 514d 1 0 5154 1 0 5164 1 0",
  "5177 1 0 2051c 1 0 34b9 1 0 5167 1 0 518d 1 0 2054b 1 0 5197 1 0 51a4 1 0 4ecc 1 0 51ac",
  "1 0 51b5 1 0 291df 1 0 51f5 1 0 5203 1 0 34df 1 0 523b 1 0 5246 1 0 5272 1 0 5277 1 0",
  "3515 1 0 52c7 1 0 52c9 1 0 52e4 1 0 52fa 1 1 5305 1 0 5317 1 0 5349 1 0 5351 1 0 535a 1",
  "0 5373 1 0 537d 1 0 537f 1 0 537f 1 0 537f 1 0 20a2c 1 0 7070 1 0 53ca 1 0 53df 1 0",
  "20b63 1 0 53eb 1 0 53f1 1 0 5406 1 0 549e 1 0 5438 1 0 5448 1 0 5468 1 0 54a2 1 0 54f6 1",
  "0 5510 1 0 5553 1 0 5563 1 0 5584 1 0 5584 1 0 5599 1 0 55ab 1 0 55b3 1 0 55c2 1 0 5716",
  "1 0 5606 1 0 5717 1 0 5651 1 0 5674 1 0 5207 1 0 58ee 1 0 57ce 1 0 57f4 1 0 580d 1 0",
  "578b 1 0 5832 1 0 5831 1 0 58ac 1 0 214e4 1 0 58f2 1 0 58f7 1 0 5906 1 0 591a 1 0 5922 1",
  "0 5962 1 0 216a8 1 0 216ea 1 0 59ec 1 0 5a1b 1 0 5a27 1 0 59d8 1 0 5a66 1 0 36ee 1 0",
  "36fc 1 0 5b08 1 0 5b3e 1 0 5b3e 1 0 219c8 1 0 5bc3 1 0 5bd8 1 0 5be7 1 0 5bf3 1 0 21b18",
  "1 0 5bff 1 0 5c06 1 0 5f53 1 0 5c22 1 0 3781 1 0 5c60 1 0 5c6e 1 0 5cc0 1 0 5c8d 1 0",
  "21de4 1 0 5d43 1 0 21de6 1 0 5d6e 1 0 5d6b 1 0 5d7c 1 1 5de1 1 0 382f 1 0 5dfd 1 0 5e28",
  "1 0 5e3d 1 0 5e69 1 0 3862 1 0 22183 1 0 387c 1 0 5eb0 1 0 5eb3 1 0 5eb6 1 0 5eca 1 0",
  "2a392 1 0 5efe 1 0 22331 1 0 22331 1 0 8201 1 0 5f22 1 0 5f22 1 0 38c7 1 0 232b8 1 0",
  "261da 1 0 5f62 1 0 5f6b 1 0 38e3 1 0 5f9a 1 0 5fcd 1 0 5fd7 1 0 5ff9 1 0 6081 1 0 393a 1",
  "0 391c 1 0 6094 1 0 226d4 1 0 60c7 1 0 6148 1 0 614c 1 0 614e 1 0 614c 1 0 617a 1 0 618e",
  "1 0 61b2 1 0 61a4 1 0 61af 1 0 61de 1 0 61f2 1 0 61f6 1 0 6210 1 0 621b 1 0 625d 1 0",
  "62b1 1 0 62d4 1 0 6350 1 0 22b0c 1 0 633d 1 0 62fc 1 0 6368 1 0 6383 1 0 63e4 1 0 22bf1",
  "1 0 6422 1 0 63c5 1 0 63a9 1 0 3a2e 1 0 6469 1 0 647e 1 0 649d 1 0 6477 1 0 3a6c 1 0",
  "654f 1 0 656c 1 0 2300a 1 0 65e3 1 0 66f8 1 0 6649 1 0 3b19 1 0 6691 1 0 3b08 1 0 3ae4 1",
  "0 5192 1 0 5195 1 0 6700 1 0 669c 1 0 80ad 1 0 43d9 1 0 6717 1 0 671b 1 0 6721 1 0 675e",
  "1 0 6753 1 0 233c3 1 0 3b49 1 0 67fa 1 0 6785 1 0 6852 1 0 6885 1 0 2346d 1 0 688e 1 0",
  "681f 1 0 6914 1 0 3b9d 1 0 6942 1 0 69a3 1 0 69ea 1 0 6aa8 1 0 236a3 1 0 6adb 1 0 3c18 1",
  "0 6b21 1 0 238a7 1 0 6b54 1 0 3c4e 1 0 6b72 1 0 6b9f 1 1 6bba 1 0 23a8d 1 0 21d0b 1 0",
  "23afa 1 0 6c4e 1 0 23cbc 1 0 6cbf 1 0 6ccd 1 0 6c67 1 0 6d16 1 0 6d3e 1 0 6d77 1 0 6d41",
  "1 0 6d69 1 0 6d78 1 0 6d85 1 0 23d1e 1 0 6d34 1 0 6e2f 1 0 6e6e 1 0 3d33 1 0 6ecb 1 0",
  "6ec7 1 0 23ed1 1 0 6df9 1 0 6f6e 1 0 23f5e 1 0 23f8e 1 0 6fc6 1 0 7039 1 0 701e 1 0 701b",
  "1 0 3d96 1 0 704a 1 0 707d 1 0 7077 1 0 70ad 1 0 20525 1 0 7145 1 0 24263 1 0 719c 1 0",
  "243ab 1 0 7228 1 0 7235 1 0 7250 1 0 24608 1 0 7280 1 0 7295 1 0 24735 1 0 24814 1 0",
  "737a 1 0 738b 1 0 3eac 1 0 73a5 1 0 3eb8 1 0 3eb8 1 0 7447 1 0 745c 1 0 7471 1 0 7485 1",
  "0 74ca 1 0 3f1b 1 0 7524 1 0 24c36 1 0 753e 1 0 24c92 1 0 7570 1 0 2219f 1 0 7610 1 0",
  "24fa1 1 0 24fb8 1 0 25044 1 0 3ffc 1 0 4008 1 0 76f4 1 0 250f3 1 0 250f2 1 0 25119 1 0",
  "25133 1 1 771e 1 0 771f 1 0 774a 1 0 4039 1 0 778b 1 0 4046 1 0 4096 1 0 2541d 1 0 784e",
  "1 0 788c 1 0 78cc 1 0 40e3 1 0 25626 1 0 7956 1 0 2569a 1 0 256c5 1 0 798f 1 0 79eb 1 0",
  "412f 1 0 7a40 1 0 7a4a 1 0 7a4f 1 0 2597c 1 0 25aa7 1 0 25aa7 1 0 7aee 1 0 4202 1 0",
  "25bab 1 0 7bc6 1 0 7bc9 1 0 4227 1 0 25c80 1 0 7cd2 1 0 42a0 1 0 7ce8 1 0 7ce3 1 0 7d00",
  "1 0 25f86 1 0 7d63 1 0 4301 1 0 7dc7 1 0 7e02 1 0 7e45 1 0 4334 1 0 26228 1 0 26247 1 0",
  "4359 1 0 262d9 1 0 7f7a 1 0 2633e 1 0 7f95 1 0 7ffa 1 0 8005 1 0 264da 1 0 26523 1 0",
  "8060 1 0 265a8 1 0 8070 1 0 2335f 1 0 43d5 1 0 80b2 1 0 8103 1 0 440b 1 0 813e 1 0 5ab5",
  "1 0 267a7 1 0 267b5 1 0 23393 1 0 2339c 1 0 8201 1 0 8204 1 0 8f9e 1 0 446b 1 0 8291 1 0",
  "828b 1 0 829d 1 0 52b3 1 0 82b1 1 0 82b3 1 0 82bd 1 0 82e6 1 0 26b3c 1 0 82e5 1 0 831d 1",
  "0 8363 1 0 83ad 1 0 8323 1 0 83bd 1 0 83e7 1 0 8457 1 0 8353 1 0 83ca 1 0 83cc 1 0 83dc",
  "1 0 26c36 1 0 26d6b 1 0 26cd5 1 0 452b 1 0 84f1 1 0 84f3 1 0 8516 1 0 273ca 1 0 8564 1 0",
  "26f2c 1 0 455d 1 0 4561 1 0 26fb1 1 0 270d2 1 0 456b 1 0 8650 1 0 865c 1 0 8667 1 0 8669",
  "1 0 86a9 1 0 8688 1 0 870e 1 0 86e2 1 0 8779 1 0 8728 1 0 876b 1 0 8786 1 0 45d7 1 0",
  "87e1 1 0 8801 1 0 45f9 1 0 8860 1 0 8863 1 0 27667 1 0 88d7 1 0 88de 1 0 4635 1 0 88fa 1",
  "0 34bb 1 0 278ae 1 0 27966 1 0 46be 1 0 46c7 1 0 8aa0 1 0 8aed 1 0 8b8a 1 0 8c55 1 0",
  "27ca8 1 0 8cab 1 0 8cc1 1 0 8d1b 1 0 8d77 1 0 27f2f 1 0 20804 1 0 8dcb 1 0 8dbc 1 0 8df0",
  "1 0 208de 1 0 8ed4 1 0 8f38 1 0 285d2 1 0 285ed 1 0 9094 1 0 90f1 1 0 9111 1 0 2872e 1 0",
  "911b 1 0 9238 1 1 92d7 1 0 927c 1 0 93f9 1 0 9415 1 0 28bfa 1 0 958b 1 0 4995 1 0 95b7 1",
  "0 28d77 1 0 49e6 1 0 96c3 1 0 5db2 1 0 9723 1 0 29145 1 0 2921a 1 0 4a6e 1 0 4a76 1 0",
  "97e0 1 0 2940a 1 0 4ab2 1 0 29496 1 0 980b 1 0 980b 1 0 9829 1 0 295b6 1 0 98e2 1 0 4b33",
  "1 0 9929 1 0 99a7 1 0 99c2 1 0 99fe 1 0 4bce 1 0 29b30 1 0 9b12 1 0 9c40 1 0 9cfd 1 0",
  "4cce 1 0 4ced 1 0 9d67 1 0 2a0ce 1 0 4cf8 1 0 2a105 1 0 2a20e 1 0 2a291 1 0 9ebb 1 0",
  "4d56 1 0 9ef9 1 0 9efe 1 0 9f05 1 0 9f0f 1 0 9f16 1 0 9f3b 1 0 2a600"]

/-- Characters that decompose into several code points: the distance from the character
before, the number of code points, and the code points. -/
def severalLines : List String := [
  "c0 2 41 300 1 2 41 301 1 2 41 302 1 2 41 303 1 2 41 308 1 2 41 30a 2 2 43 327 1 2 45 300",
  "1 2 45 301 1 2 45 302 1 2 45 308 1 2 49 300 1 2 49 301 1 2 49 302 1 2 49 308 2 2 4e 303",
  "1 2 4f 300 1 2 4f 301 1 2 4f 302 1 2 4f 303 1 2 4f 308 3 2 55 300 1 2 55 301 1 2 55 302",
  "1 2 55 308 1 2 59 301 3 2 61 300 1 2 61 301 1 2 61 302 1 2 61 303 1 2 61 308 1 2 61 30a",
  "2 2 63 327 1 2 65 300 1 2 65 301 1 2 65 302 1 2 65 308 1 2 69 300 1 2 69 301 1 2 69 302",
  "1 2 69 308 2 2 6e 303 1 2 6f 300 1 2 6f 301 1 2 6f 302 1 2 6f 303 1 2 6f 308 3 2 75 300",
  "1 2 75 301 1 2 75 302 1 2 75 308 1 2 79 301 2 2 79 308 1 2 41 304 1 2 61 304 1 2 41 306",
  "1 2 61 306 1 2 41 328 1 2 61 328 1 2 43 301 1 2 63 301 1 2 43 302 1 2 63 302 1 2 43 307",
  "1 2 63 307 1 2 43 30c 1 2 63 30c 1 2 44 30c 1 2 64 30c 3 2 45 304 1 2 65 304 1 2 45 306",
  "1 2 65 306 1 2 45 307 1 2 65 307 1 2 45 328 1 2 65 328 1 2 45 30c 1 2 65 30c 1 2 47 302",
  "1 2 67 302 1 2 47 306 1 2 67 306 1 2 47 307 1 2 67 307 1 2 47 327 1 2 67 327 1 2 48 302",
  "1 2 68 302 3 2 49 303 1 2 69 303 1 2 49 304 1 2 69 304 1 2 49 306 1 2 69 306 1 2 49 328",
  "1 2 69 328 1 2 49 307 2 2 49 4a 1 2 69 6a 1 2 4a 302 1 2 6a 302 1 2 4b 327 1 2 6b 327 2",
  "2 4c 301 1 2 6c 301 1 2 4c 327 1 2 6c 327 1 2 4c 30c 1 2 6c 30c 1 2 4c b7 1 2 6c b7 3 2",
  "4e 301 1 2 6e 301 1 2 4e 327 1 2 6e 327 1 2 4e 30c 1 2 6e 30c 1 2 2bc 6e 3 2 4f 304 1 2",
  "6f 304 1 2 4f 306 1 2 6f 306 1 2 4f 30b 1 2 6f 30b 3 2 52 301 1 2 72 301 1 2 52 327 1 2",
  "72 327 1 2 52 30c 1 2 72 30c 1 2 53 301 1 2 73 301 1 2 53 302 1 2 73 302 1 2 53 327 1 2",
  "73 327 1 2 53 30c 1 2 73 30c 1 2 54 327 1 2 74 327 1 2 54 30c 1 2 74 30c 3 2 55 303 1 2",
  "75 303 1 2 55 304 1 2 75 304 1 2 55 306 1 2 75 306 1 2 55 30a 1 2 75 30a 1 2 55 30b 1 2",
  "75 30b 1 2 55 328 1 2 75 328 1 2 57 302 1 2 77 302 1 2 59 302 1 2 79 302 1 2 59 308 1 2",
  "5a 301 1 2 7a 301 1 2 5a 307 1 2 7a 307 1 2 5a 30c 1 2 7a 30c 22 2 4f 31b 1 2 6f 31b e 2",
  "55 31b 1 2 75 31b 14 3 44 5a 30c 1 3 44 7a 30c 1 3 64 7a 30c 1 2 4c 4a 1 2 4c 6a 1 2 6c",
  "6a 1 2 4e 4a 1 2 4e 6a 1 2 6e 6a 1 2 41 30c 1 2 61 30c 1 2 49 30c 1 2 69 30c 1 2 4f 30c",
  "1 2 6f 30c 1 2 55 30c 1 2 75 30c 1 3 55 308 304 1 3 75 308 304 1 3 55 308 301 1 3 75 308",
  "301 1 3 55 308 30c 1 3 75 308 30c 1 3 55 308 300 1 3 75 308 300 2 3 41 308 304 1 3 61",
  "308 304 1 3 41 307 304 1 3 61 307 304 1 2 c6 304 1 2 e6 304 3 2 47 30c 1 2 67 30c 1 2 4b",
  "30c 1 2 6b 30c 1 2 4f 328 1 2 6f 328 1 3 4f 328 304 1 3 6f 328 304 1 2 1b7 30c 1 2 292",
  "30c 1 2 6a 30c 1 2 44 5a 1 2 44 7a 1 2 64 7a 1 2 47 301 1 2 67 301 3 2 4e 300 1 2 6e 300",
  "1 3 41 30a 301 1 3 61 30a 301 1 2 c6 301 1 2 e6 301 1 2 d8 301 1 2 f8 301 1 2 41 30f 1 2",
  "61 30f 1 2 41 311 1 2 61 311 1 2 45 30f 1 2 65 30f 1 2 45 311 1 2 65 311 1 2 49 30f 1 2",
  "69 30f 1 2 49 311 1 2 69 311 1 2 4f 30f 1 2 6f 30f 1 2 4f 311 1 2 6f 311 1 2 52 30f 1 2",
  "72 30f 1 2 52 311 1 2 72 311 1 2 55 30f 1 2 75 30f 1 2 55 311 1 2 75 311 1 2 53 326 1 2",
  "73 326 1 2 54 326 1 2 74 326 3 2 48 30c 1 2 68 30c 7 2 41 307 1 2 61 307 1 2 45 327 1 2",
  "65 327 1 3 4f 308 304 1 3 6f 308 304 1 3 4f 303 304 1 3 6f 303 304 1 2 4f 307 1 2 6f 307",
  "1 3 4f 307 304 1 3 6f 307 304 1 2 59 304 1 2 79 304 111 2 308 301 42 2 391 301 2 2 395",
  "301 1 2 397 301 1 2 399 301 2 2 39f 301 2 2 3a5 301 1 2 3a9 301 1 3 3b9 308 301 1a 2 399",
  "308 1 2 3a5 308 1 2 3b1 301 1 2 3b5 301 1 2 3b7 301 1 2 3b9 301 1 3 3c5 308 301 1a 2 3b9",
  "308 1 2 3c5 308 1 2 3bf 301 1 2 3c5 301 1 2 3c9 301 5 2 3a5 301 1 2 3a5 308 2c 2 415 300",
  "1 2 415 308 2 2 413 301 4 2 406 308 5 2 41a 301 1 2 418 300 1 2 423 306 b 2 418 306 20 2",
  "438 306 17 2 435 300 1 2 435 308 2 2 433 301 4 2 456 308 5 2 43a 301 1 2 438 300 1 2 443",
  "306 18 2 474 30f 1 2 475 30f 4a 2 416 306 1 2 436 306 e 2 410 306 1 2 430 306 1 2 410",
  "308 1 2 430 308 3 2 415 306 1 2 435 306 3 2 4d8 308 1 2 4d9 308 1 2 416 308 1 2 436 308",
  "1 2 417 308 1 2 437 308 3 2 418 304 1 2 438 304 1 2 418 308 1 2 438 308 1 2 41e 308 1 2",
  "43e 308 3 2 4e8 308 1 2 4e9 308 1 2 42d 308 1 2 44d 308 1 2 423 304 1 2 443 304 1 2 423",
  "308 1 2 443 308 1 2 423 30b 1 2 443 30b 1 2 427 308 1 2 447 308 3 2 42b 308 1 2 44b 308",
  "8e 2 565 582 9b 2 627 653 1 2 627 654 1 2 648 654 1 2 627 655 1 2 64a 654 4f 2 627 674 1",
  "2 648 674 1 2 6c7 674 1 2 64a 674 48 2 6d5 654 2 2 6c1 654 11 2 6d2 654 256 2 928 93c 8",
  "2 930 93c 3 2 933 93c 24 2 915 93c 1 2 916 93c 1 2 917 93c 1 2 91c 93c 1 2 921 93c 1 2",
  "922 93c 1 2 92b 93c 1 2 92f 93c 6c 2 9c7 9be 1 2 9c7 9d7 10 2 9a1 9bc 1 2 9a2 9bc 2 2",
  "9af 9bc 54 2 a32 a3c 3 2 a38 a3c 23 2 a16 a3c 1 2 a17 a3c 1 2 a1c a3c 3 2 a2b a3c ea 2",
  "b47 b56 3 2 b47 b3e 1 2 b47 b57 10 2 b21 b3c 1 2 b22 b3c 37 2 b92 bd7 36 2 bc6 bbe 1 2",
  "bc7 bbe 1 2 bc6 bd7 7c 2 c46 c56 78 2 cbf cd5 7 2 cc6 cd5 1 2 cc6 cd6 2 2 cc6 cc2 1 3",
  "cc6 cc2 cd5 7f 2 d46 d3e 1 2 d47 d3e 1 2 d46 d57 8e 2 dd9 dca 2 2 dd9 dcf 1 3 dd9 dcf",
  "dca 1 2 dd9 ddf 55 2 e4d e32 80 2 ecd eb2 29 2 eab e99 1 2 eab ea1 66 2 f42 fb7 a 2 f4c",
  "fb7 5 2 f51 fb7 5 2 f56 fb7 5 2 f5b fb7 d 2 f40 fb5 a 2 f71 f72 2 2 f71 f74 1 2 fb2 f80",
  "1 3 fb2 f71 f80 1 2 fb3 f80 1 3 fb3 f71 f80 8 2 f71 f80 12 2 f92 fb7 a 2 f9c fb7 5 2 fa1",
  "fb7 5 2 fa6 fb7 5 2 fab fb7 d 2 f90 fb5 6d 2 1025 102e ae0 2 1b05 1b35 2 2 1b07 1b35 2 2",
  "1b09 1b35 2 2 1b0b 1b35 2 2 1b0d 1b35 4 2 1b11 1b35 29 2 1b3a 1b35 2 2 1b3c 1b35 3 2",
  "1b3e 1b35 1 2 1b3f 1b35 2 2 1b42 1b35 2bd 2 41 325 1 2 61 325 1 2 42 307 1 2 62 307 1 2",
  "42 323 1 2 62 323 1 2 42 331 1 2 62 331 1 3 43 327 301 1 3 63 327 301 1 2 44 307 1 2 64",
  "307 1 2 44 323 1 2 64 323 1 2 44 331 1 2 64 331 1 2 44 327 1 2 64 327 1 2 44 32d 1 2 64",
  "32d 1 3 45 304 300 1 3 65 304 300 1 3 45 304 301 1 3 65 304 301 1 2 45 32d 1 2 65 32d 1",
  "2 45 330 1 2 65 330 1 3 45 327 306 1 3 65 327 306 1 2 46 307 1 2 66 307 1 2 47 304 1 2",
  "67 304 1 2 48 307 1 2 68 307 1 2 48 323 1 2 68 323 1 2 48 308 1 2 68 308 1 2 48 327 1 2",
  "68 327 1 2 48 32e 1 2 68 32e 1 2 49 330 1 2 69 330 1 3 49 308 301 1 3 69 308 301 1 2 4b",
  "301 1 2 6b 301 1 2 4b 323 1 2 6b 323 1 2 4b 331 1 2 6b 331 1 2 4c 323 1 2 6c 323 1 3 4c",
  "323 304 1 3 6c 323 304 1 2 4c 331 1 2 6c 331 1 2 4c 32d 1 2 6c 32d 1 2 4d 301 1 2 6d 301",
  "1 2 4d 307 1 2 6d 307 1 2 4d 323 1 2 6d 323 1 2 4e 307 1 2 6e 307 1 2 4e 323 1 2 6e 323",
  "1 2 4e 331 1 2 6e 331 1 2 4e 32d 1 2 6e 32d 1 3 4f 303 301 1 3 6f 303 301 1 3 4f 303 308",
  "1 3 6f 303 308 1 3 4f 304 300 1 3 6f 304 300 1 3 4f 304 301 1 3 6f 304 301 1 2 50 301 1",
  "2 70 301 1 2 50 307 1 2 70 307 1 2 52 307 1 2 72 307 1 2 52 323 1 2 72 323 1 3 52 323",
  "304 1 3 72 323 304 1 2 52 331 1 2 72 331 1 2 53 307 1 2 73 307 1 2 53 323 1 2 73 323 1 3",
  "53 301 307 1 3 73 301 307 1 3 53 30c 307 1 3 73 30c 307 1 3 53 323 307 1 3 73 323 307 1",
  "2 54 307 1 2 74 307 1 2 54 323 1 2 74 323 1 2 54 331 1 2 74 331 1 2 54 32d 1 2 74 32d 1",
  "2 55 324 1 2 75 324 1 2 55 330 1 2 75 330 1 2 55 32d 1 2 75 32d 1 3 55 303 301 1 3 75",
  "303 301 1 3 55 304 308 1 3 75 304 308 1 2 56 303 1 2 76 303 1 2 56 323 1 2 76 323 1 2 57",
  "300 1 2 77 300 1 2 57 301 1 2 77 301 1 2 57 308 1 2 77 308 1 2 57 307 1 2 77 307 1 2 57",
  "323 1 2 77 323 1 2 58 307 1 2 78 307 1 2 58 308 1 2 78 308 1 2 59 307 1 2 79 307 1 2 5a",
  "302 1 2 7a 302 1 2 5a 323 1 2 7a 323 1 2 5a 331 1 2 7a 331 1 2 68 331 1 2 74 308 1 2 77",
  "30a 1 2 79 30a 1 2 61 2be 1 2 73 307 5 2 41 323 1 2 61 323 1 2 41 309 1 2 61 309 1 3 41",
  "302 301 1 3 61 302 301 1 3 41 302 300 1 3 61 302 300 1 3 41 302 309 1 3 61 302 309 1 3",
  "41 302 303 1 3 61 302 303 1 3 41 323 302 1 3 61 323 302 1 3 41 306 301 1 3 61 306 301 1",
  "3 41 306 300 1 3 61 306 300 1 3 41 306 309 1 3 61 306 309 1 3 41 306 303 1 3 61 306 303",
  "1 3 41 323 306 1 3 61 323 306 1 2 45 323 1 2 65 323 1 2 45 309 1 2 65 309 1 2 45 303 1 2",
  "65 303 1 3 45 302 301 1 3 65 302 301 1 3 45 302 300 1 3 65 302 300 1 3 45 302 309 1 3 65",
  "302 309 1 3 45 302 303 1 3 65 302 303 1 3 45 323 302 1 3 65 323 302 1 2 49 309 1 2 69",
  "309 1 2 49 323 1 2 69 323 1 2 4f 323 1 2 6f 323 1 2 4f 309 1 2 6f 309 1 3 4f 302 301 1 3",
  "6f 302 301 1 3 4f 302 300 1 3 6f 302 300 1 3 4f 302 309 1 3 6f 302 309 1 3 4f 302 303 1",
  "3 6f 302 303 1 3 4f 323 302 1 3 6f 323 302 1 3 4f 31b 301 1 3 6f 31b 301 1 3 4f 31b 300",
  "1 3 6f 31b 300 1 3 4f 31b 309 1 3 6f 31b 309 1 3 4f 31b 303 1 3 6f 31b 303 1 3 4f 31b",
  "323 1 3 6f 31b 323 1 2 55 323 1 2 75 323 1 2 55 309 1 2 75 309 1 3 55 31b 301 1 3 75 31b",
  "301 1 3 55 31b 300 1 3 75 31b 300 1 3 55 31b 309 1 3 75 31b 309 1 3 55 31b 303 1 3 75",
  "31b 303 1 3 55 31b 323 1 3 75 31b 323 1 2 59 300 1 2 79 300 1 2 59 323 1 2 79 323 1 2 59",
  "309 1 2 79 309 1 2 59 303 1 2 79 303 7 2 3b1 313 1 2 3b1 314 1 3 3b1 313 300 1 3 3b1 314",
  "300 1 3 3b1 313 301 1 3 3b1 314 301 1 3 3b1 313 342 1 3 3b1 314 342 1 2 391 313 1 2 391",
  "314 1 3 391 313 300 1 3 391 314 300 1 3 391 313 301 1 3 391 314 301 1 3 391 313 342 1 3",
  "391 314 342 1 2 3b5 313 1 2 3b5 314 1 3 3b5 313 300 1 3 3b5 314 300 1 3 3b5 313 301 1 3",
  "3b5 314 301 3 2 395 313 1 2 395 314 1 3 395 313 300 1 3 395 314 300 1 3 395 313 301 1 3",
  "395 314 301 3 2 3b7 313 1 2 3b7 314 1 3 3b7 313 300 1 3 3b7 314 300 1 3 3b7 313 301 1 3",
  "3b7 314 301 1 3 3b7 313 342 1 3 3b7 314 342 1 2 397 313 1 2 397 314 1 3 397 313 300 1 3",
  "397 314 300 1 3 397 313 301 1 3 397 314 301 1 3 397 313 342 1 3 397 314 342 1 2 3b9 313",
  "1 2 3b9 314 1 3 3b9 313 300 1 3 3b9 314 300 1 3 3b9 313 301 1 3 3b9 314 301 1 3 3b9 313",
  "342 1 3 3b9 314 342 1 2 399 313 1 2 399 314 1 3 399 313 300 1 3 399 314 300 1 3 399 313",
  "301 1 3 399 314 301 1 3 399 313 342 1 3 399 314 342 1 2 3bf 313 1 2 3bf 314 1 3 3bf 313",
  "300 1 3 3bf 314 300 1 3 3bf 313 301 1 3 3bf 314 301 3 2 39f 313 1 2 39f 314 1 3 39f 313",
  "300 1 3 39f 314 300 1 3 39f 313 301 1 3 39f 314 301 3 2 3c5 313 1 2 3c5 314 1 3 3c5 313",
  "300 1 3 3c5 314 300 1 3 3c5 313 301 1 3 3c5 314 301 1 3 3c5 313 342 1 3 3c5 314 342 2 2",
  "3a5 314 2 3 3a5 314 300 2 3 3a5 314 301 2 3 3a5 314 342 1 2 3c9 313 1 2 3c9 314 1 3 3c9",
  "313 300 1 3 3c9 314 300 1 3 3c9 313 301 1 3 3c9 314 301 1 3 3c9 313 342 1 3 3c9 314 342",
  "1 2 3a9 313 1 2 3a9 314 1 3 3a9 313 300 1 3 3a9 314 300 1 3 3a9 313 301 1 3 3a9 314 301",
  "1 3 3a9 313 342 1 3 3a9 314 342 1 2 3b1 300 1 2 3b1 301 1 2 3b5 300 1 2 3b5 301 1 2 3b7",
  "300 1 2 3b7 301 1 2 3b9 300 1 2 3b9 301 1 2 3bf 300 1 2 3bf 301 1 2 3c5 300 1 2 3c5 301",
  "1 2 3c9 300 1 2 3c9 301 3 3 3b1 313 345 1 3 3b1 314 345 1 4 3b1 313 300 345 1 4 3b1 314",
  "300 345 1 4 3b1 313 301 345 1 4 3b1 314 301 345 1 4 3b1 313 342 345 1 4 3b1 314 342 345",
  "1 3 391 313 345 1 3 391 314 345 1 4 391 313 300 345 1 4 391 314 300 345 1 4 391 313 301",
  "345 1 4 391 314 301 345 1 4 391 313 342 345 1 4 391 314 342 345 1 3 3b7 313 345 1 3 3b7",
  "314 345 1 4 3b7 313 300 345 1 4 3b7 314 300 345 1 4 3b7 313 301 345 1 4 3b7 314 301 345",
  "1 4 3b7 313 342 345 1 4 3b7 314 342 345 1 3 397 313 345 1 3 397 314 345 1 4 397 313 300",
  "345 1 4 397 314 300 345 1 4 397 313 301 345 1 4 397 314 301 345 1 4 397 313 342 345 1 4",
  "397 314 342 345 1 3 3c9 313 345 1 3 3c9 314 345 1 4 3c9 313 300 345 1 4 3c9 314 300 345",
  "1 4 3c9 313 301 345 1 4 3c9 314 301 345 1 4 3c9 313 342 345 1 4 3c9 314 342 345 1 3 3a9",
  "313 345 1 3 3a9 314 345 1 4 3a9 313 300 345 1 4 3a9 314 300 345 1 4 3a9 313 301 345 1 4",
  "3a9 314 301 345 1 4 3a9 313 342 345 1 4 3a9 314 342 345 1 2 3b1 306 1 2 3b1 304 1 3 3b1",
  "300 345 1 2 3b1 345 1 3 3b1 301 345 2 2 3b1 342 1 3 3b1 342 345 1 2 391 306 1 2 391 304",
  "1 2 391 300 1 2 391 301 1 2 391 345 6 3 3b7 300 345 1 2 3b7 345 1 3 3b7 301 345 2 2 3b7",
  "342 1 3 3b7 342 345 1 2 395 300 1 2 395 301 1 2 397 300 1 2 397 301 1 2 397 345 4 2 3b9",
  "306 1 2 3b9 304 1 3 3b9 308 300 1 3 3b9 308 301 3 2 3b9 342 1 3 3b9 308 342 1 2 399 306",
  "1 2 399 304 1 2 399 300 1 2 399 301 5 2 3c5 306 1 2 3c5 304 1 3 3c5 308 300 1 3 3c5 308",
  "301 1 2 3c1 313 1 2 3c1 314 1 2 3c5 342 1 3 3c5 308 342 1 2 3a5 306 1 2 3a5 304 1 2 3a5",
  "300 1 2 3a5 301 1 2 3a1 314 6 3 3c9 300 345 1 2 3c9 345 1 3 3c9 301 345 2 2 3c9 342 1 3",
  "3c9 342 345 1 2 39f 300 1 2 39f 301 1 2 3a9 300 1 2 3a9 301 1 2 3a9 345 12f 2 41 30a 36",
  "2 49 49 1 3 49 49 49 1 2 49 56 2 2 56 49 1 3 56 49 49 1 4 56 49 49 49 1 2 49 58 2 2 58",
  "49 1 3 58 49 49 6 2 69 69 1 3 69 69 69 1 2 69 76 2 2 76 69 1 3 76 69 69 1 4 76 69 69 69",
  "1 2 69 78 2 2 78 69 1 3 78 69 69 ed1 2 304b 3099 2 2 304d 3099 2 2 304f 3099 2 2 3051",
  "3099 2 2 3053 3099 2 2 3055 3099 2 2 3057 3099 2 2 3059 3099 2 2 305b 3099 2 2 305d 3099",
  "2 2 305f 3099 2 2 3061 3099 3 2 3064 3099 2 2 3066 3099 2 2 3068 3099 7 2 306f 3099 1 2",
  "306f 309a 2 2 3072 3099 1 2 3072 309a 2 2 3075 3099 1 2 3075 309a 2 2 3078 3099 1 2 3078",
  "309a 2 2 307b 3099 1 2 307b 309a 17 2 3046 3099 a 2 309d 3099 1 2 3088 308a d 2 30ab",
  "3099 2 2 30ad 3099 2 2 30af 3099 2 2 30b1 3099 2 2 30b3 3099 2 2 30b5 3099 2 2 30b7 3099",
  "2 2 30b9 3099 2 2 30bb 3099 2 2 30bd 3099 2 2 30bf 3099 2 2 30c1 3099 3 2 30c4 3099 2 2",
  "30c6 3099 2 2 30c8 3099 7 2 30cf 3099 1 2 30cf 309a 2 2 30d2 3099 1 2 30d2 309a 2 2 30d5",
  "3099 1 2 30d5 309a 2 2 30d8 3099 1 2 30d8 309a 2 2 30db 3099 1 2 30db 309a 17 2 30a6",
  "3099 3 2 30ef 3099 1 2 30f0 3099 1 2 30f1 3099 1 2 30f2 3099 4 2 30fd 3099 1 2 30b3 30c8",
  "ca01 2 66 66 1 2 66 69 1 2 66 6c 1 3 66 66 69 1 3 66 66 6c 1 2 73 74 1 2 73 74 d 2 574",
  "576 1 2 574 565 1 2 574 56b 1 2 57e 576 1 2 574 56d 6 2 5d9 5b4 2 2 5f2 5b7 b 2 5e9 5c1",
  "1 2 5e9 5c2 1 3 5e9 5bc 5c1 1 3 5e9 5bc 5c2 1 2 5d0 5b7 1 2 5d0 5b8 1 2 5d0 5bc 1 2 5d1",
  "5bc 1 2 5d2 5bc 1 2 5d3 5bc 1 2 5d4 5bc 1 2 5d5 5bc 1 2 5d6 5bc 2 2 5d8 5bc 1 2 5d9 5bc",
  "1 2 5da 5bc 1 2 5db 5bc 1 2 5dc 5bc 2 2 5de 5bc 2 2 5e0 5bc 1 2 5e1 5bc 2 2 5e3 5bc 1 2",
  "5e4 5bc 2 2 5e6 5bc 1 2 5e7 5bc 1 2 5e8 5bc 1 2 5e9 5bc 1 2 5ea 5bc 1 2 5d5 5b9 1 2 5d1",
  "5bf 1 2 5db 5bf 1 2 5e4 5bf 1 2 5d0 5dc 55 2 6d5 654 1 2 6d5 654 b 2 6d2 654 1 2 6d2 654",
  "2c 2 6c7 674 d 3 64a 654 627 1 3 64a 654 627 1 3 64a 654 6d5 1 3 64a 654 6d5 1 3 64a 654",
  "648 1 3 64a 654 648 1 3 64a 654 6c7 1 3 64a 654 6c7 1 3 64a 654 6c6 1 3 64a 654 6c6 1 3",
  "64a 654 6c8 1 3 64a 654 6c8 1 3 64a 654 6d0 1 3 64a 654 6d0 1 3 64a 654 6d0 1 3 64a 654",
  "649 1 3 64a 654 649 1 3 64a 654 649 5 3 64a 654 62c 1 3 64a 654 62d 1 3 64a 654 645 1 3",
  "64a 654 649 1 3 64a 654 64a 1 2 628 62c 1 2 628 62d 1 2 628 62e 1 2 628 645 1 2 628 649",
  "1 2 628 64a 1 2 62a 62c 1 2 62a 62d 1 2 62a 62e 1 2 62a 645 1 2 62a 649 1 2 62a 64a 1 2",
  "62b 62c 1 2 62b 645 1 2 62b 649 1 2 62b 64a 1 2 62c 62d 1 2 62c 645 1 2 62d 62c 1 2 62d",
  "645 1 2 62e 62c 1 2 62e 62d 1 2 62e 645 1 2 633 62c 1 2 633 62d 1 2 633 62e 1 2 633 645",
  "1 2 635 62d 1 2 635 645 1 2 636 62c 1 2 636 62d 1 2 636 62e 1 2 636 645 1 2 637 62d 1 2",
  "637 645 1 2 638 645 1 2 639 62c 1 2 639 645 1 2 63a 62c 1 2 63a 645 1 2 641 62c 1 2 641",
  "62d 1 2 641 62e 1 2 641 645 1 2 641 649 1 2 641 64a 1 2 642 62d 1 2 642 645 1 2 642 649",
  "1 2 642 64a 1 2 643 627 1 2 643 62c 1 2 643 62d 1 2 643 62e 1 2 643 644 1 2 643 645 1 2",
  "643 649 1 2 643 64a 1 2 644 62c 1 2 644 62d 1 2 644 62e 1 2 644 645 1 2 644 649 1 2 644",
  "64a 1 2 645 62c 1 2 645 62d 1 2 645 62e 1 2 645 645 1 2 645 649 1 2 645 64a 1 2 646 62c",
  "1 2 646 62d 1 2 646 62e 1 2 646 645 1 2 646 649 1 2 646 64a 1 2 647 62c 1 2 647 645 1 2",
  "647 649 1 2 647 64a 1 2 64a 62c 1 2 64a 62d 1 2 64a 62e 1 2 64a 645 1 2 64a 649 1 2 64a",
  "64a 1 2 630 670 1 2 631 670 1 2 649 670 7 3 64a 654 631 1 3 64a 654 632 1 3 64a 654 645",
  "1 3 64a 654 646 1 3 64a 654 649 1 3 64a 654 64a 1 2 628 631 1 2 628 632 1 2 628 645 1 2",
  "628 646 1 2 628 649 1 2 628 64a 1 2 62a 631 1 2 62a 632 1 2 62a 645 1 2 62a 646 1 2 62a",
  "649 1 2 62a 64a 1 2 62b 631 1 2 62b 632 1 2 62b 645 1 2 62b 646 1 2 62b 649 1 2 62b 64a",
  "1 2 641 649 1 2 641 64a 1 2 642 649 1 2 642 64a 1 2 643 627 1 2 643 644 1 2 643 645 1 2",
  "643 649 1 2 643 64a 1 2 644 645 1 2 644 649 1 2 644 64a 1 2 645 627 1 2 645 645 1 2 646",
  "631 1 2 646 632 1 2 646 645 1 2 646 646 1 2 646 649 1 2 646 64a 1 2 649 670 1 2 64a 631",
  "1 2 64a 632 1 2 64a 645 1 2 64a 646 1 2 64a 649 1 2 64a 64a 1 3 64a 654 62c 1 3 64a 654",
  "62d 1 3 64a 654 62e 1 3 64a 654 645 1 3 64a 654 647 1 2 628 62c 1 2 628 62d 1 2 628 62e",
  "1 2 628 645 1 2 628 647 1 2 62a 62c 1 2 62a 62d 1 2 62a 62e 1 2 62a 645 1 2 62a 647 1 2",
  "62b 645 1 2 62c 62d 1 2 62c 645 1 2 62d 62c 1 2 62d 645 1 2 62e 62c 1 2 62e 645 1 2 633",
  "62c 1 2 633 62d 1 2 633 62e 1 2 633 645 1 2 635 62d 1 2 635 62e 1 2 635 645 1 2 636 62c",
  "1 2 636 62d 1 2 636 62e 1 2 636 645 1 2 637 62d 1 2 638 645 1 2 639 62c 1 2 639 645 1 2",
  "63a 62c 1 2 63a 645 1 2 641 62c 1 2 641 62d 1 2 641 62e 1 2 641 645 1 2 642 62d 1 2 642",
  "645 1 2 643 62c 1 2 643 62d 1 2 643 62e 1 2 643 644 1 2 643 645 1 2 644 62c 1 2 644 62d",
  "1 2 644 62e 1 2 644 645 1 2 644 647 1 2 645 62c 1 2 645 62d 1 2 645 62e 1 2 645 645 1 2",
  "646 62c 1 2 646 62d 1 2 646 62e 1 2 646 645 1 2 646 647 1 2 647 62c 1 2 647 645 1 2 647",
  "670 1 2 64a 62c 1 2 64a 62d 1 2 64a 62e 1 2 64a 645 1 2 64a 647 1 3 64a 654 645 1 3 64a",
  "654 647 1 2 628 645 1 2 628 647 1 2 62a 645 1 2 62a 647 1 2 62b 645 1 2 62b 647 1 2 633",
  "645 1 2 633 647 1 2 634 645 1 2 634 647 1 2 643 644 1 2 643 645 1 2 644 645 1 2 646 645",
  "1 2 646 647 1 2 64a 645 1 2 64a 647 1 3 640 64e 651 1 3 640 64f 651 1 3 640 650 651 1 2",
  "637 649 1 2 637 64a 1 2 639 649 1 2 639 64a 1 2 63a 649 1 2 63a 64a 1 2 633 649 1 2 633",
  "64a 1 2 634 649 1 2 634 64a 1 2 62d 649 1 2 62d 64a 1 2 62c 649 1 2 62c 64a 1 2 62e 649",
  "1 2 62e 64a 1 2 635 649 1 2 635 64a 1 2 636 649 1 2 636 64a 1 2 634 62c 1 2 634 62d 1 2",
  "634 62e 1 2 634 645 1 2 634 631 1 2 633 631 1 2 635 631 1 2 636 631 1 2 637 649 1 2 637",
  "64a 1 2 639 649 1 2 639 64a 1 2 63a 649 1 2 63a 64a 1 2 633 649 1 2 633 64a 1 2 634 649",
  "1 2 634 64a 1 2 62d 649 1 2 62d 64a 1 2 62c 649 1 2 62c 64a 1 2 62e 649 1 2 62e 64a 1 2",
  "635 649 1 2 635 64a 1 2 636 649 1 2 636 64a 1 2 634 62c 1 2 634 62d 1 2 634 62e 1 2 634",
  "645 1 2 634 631 1 2 633 631 1 2 635 631 1 2 636 631 1 2 634 62c 1 2 634 62d 1 2 634 62e",
  "1 2 634 645 1 2 633 647 1 2 634 647 1 2 637 645 1 2 633 62c 1 2 633 62d 1 2 633 62e 1 2",
  "634 62c 1 2 634 62d 1 2 634 62e 1 2 637 645 1 2 638 645 1 2 627 64b 1 2 627 64b 13 3 62a",
  "62c 645 1 3 62a 62d 62c 1 3 62a 62d 62c 1 3 62a 62d 645 1 3 62a 62e 645 1 3 62a 645 62c",
  "1 3 62a 645 62d 1 3 62a 645 62e 1 3 62c 645 62d 1 3 62c 645 62d 1 3 62d 645 64a 1 3 62d",
  "645 649 1 3 633 62d 62c 1 3 633 62c 62d 1 3 633 62c 649 1 3 633 645 62d 1 3 633 645 62d",
  "1 3 633 645 62c 1 3 633 645 645 1 3 633 645 645 1 3 635 62d 62d 1 3 635 62d 62d 1 3 635",
  "645 645 1 3 634 62d 645 1 3 634 62d 645 1 3 634 62c 64a 1 3 634 645 62e 1 3 634 645 62e",
  "1 3 634 645 645 1 3 634 645 645 1 3 636 62d 649 1 3 636 62e 645 1 3 636 62e 645 1 3 637",
  "645 62d 1 3 637 645 62d 1 3 637 645 645 1 3 637 645 64a 1 3 639 62c 645 1 3 639 645 645",
  "1 3 639 645 645 1 3 639 645 649 1 3 63a 645 645 1 3 63a 645 64a 1 3 63a 645 649 1 3 641",
  "62e 645 1 3 641 62e 645 1 3 642 645 62d 1 3 642 645 645 1 3 644 62d 645 1 3 644 62d 64a",
  "1 3 644 62d 649 1 3 644 62c 62c 1 3 644 62c 62c 1 3 644 62e 645 1 3 644 62e 645 1 3 644",
  "645 62d 1 3 644 645 62d 1 3 645 62d 62c 1 3 645 62d 645 1 3 645 62d 64a 1 3 645 62c 62d",
  "1 3 645 62c 645 1 3 645 62e 62c 1 3 645 62e 645 3 3 645 62c 62e 1 3 647 645 62c 1 3 647",
  "645 645 1 3 646 62d 645 1 3 646 62d 649 1 3 646 62c 645 1 3 646 62c 645 1 3 646 62c 649",
  "1 3 646 645 64a 1 3 646 645 649 1 3 64a 645 645 1 3 64a 645 645 1 3 628 62e 64a 1 3 62a",
  "62c 64a 1 3 62a 62c 649 1 3 62a 62e 64a 1 3 62a 62e 649 1 3 62a 645 64a 1 3 62a 645 649",
  "1 3 62c 645 64a 1 3 62c 62d 649 1 3 62c 645 649 1 3 633 62e 649 1 3 635 62d 64a 1 3 634",
  "62d 64a 1 3 636 62d 64a 1 3 644 62c 64a 1 3 644 645 64a 1 3 64a 62d 64a 1 3 64a 62c 64a",
  "1 3 64a 645 64a 1 3 645 645 64a 1 3 642 645 64a 1 3 646 62d 64a 1 3 642 645 62d 1 3 644",
  "62d 645 1 3 639 645 64a 1 3 643 645 64a 1 3 646 62c 62d 1 3 645 62e 64a 1 3 644 62c 645",
  "1 3 643 645 645 1 3 644 62c 645 1 3 646 62c 62d 1 3 62c 62d 64a 1 3 62d 62c 64a 1 3 645",
  "62c 64a 1 3 641 645 64a 1 3 628 62d 64a 1 3 643 645 645 1 3 639 62c 645 1 3 635 645 645",
  "1 3 633 62e 64a 1 3 646 62c 64a 29 3 635 644 6d2 1 3 642 644 6d2 1 4 627 644 644 647 1 4",
  "627 643 628 631 1 4 645 62d 645 62f 1 4 635 644 639 645 1 4 631 633 648 644 1 4 639 644",
  "64a 647 1 4 648 633 644 645 1 3 635 644 649 78 2 640 64b 6 2 640 64e 2 2 640 64f 2 2 640",
  "650 2 2 640 651 2 2 640 652 2 2 627 653 1 2 627 653 1 2 627 654 1 2 627 654 1 2 648 654",
  "1 2 648 654 1 2 627 655 1 2 627 655 1 2 64a 654 1 2 64a 654 1 2 64a 654 1 2 64a 654 69 3",
  "644 627 653 1 3 644 627 653 1 3 644 627 654 1 3 644 627 654 1 3 644 627 655 1 3 644 627",
  "655 1 2 644 627 1 2 644 627 119e 2 11099 110ba 2 2 1109b 110ba f 2 110a5 110ba 83 2",
  "11131 11127 1 2 11132 11127 21c 2 11347 1133e 1 2 11347 11357 16f 2 114b9 114ba 1 2",
  "114b9 114b0 2 2 114b9 114bd fc 2 115b8 115af 1 2 115b9 115af 37d 2 11935 11930"]

end EnumLookup.Text.Composed
